import TopologyExporter.App.Synthesize
import TopologyExporter.Discovery.Bgp
import TopologyExporter.Discovery.Cdp
import TopologyExporter.Discovery.Fdb
import TopologyExporter.Discovery.Isis
import TopologyExporter.Discovery.Lldp
import TopologyExporter.Discovery.Mpls
import TopologyExporter.Discovery.Ospf
import TopologyExporter.Discovery.System
import TopologyExporter.Graph.Age

/-! # Discovery cycles

One cycle polls every target, resolves and reconciles what the walkers saw, and
ages the links that only one side reported. Probes run concurrently: a cycle is
given the probes in the order in which they finish, which decides nothing but
the precedence between ARP tables.
-/

namespace TopologyExporter.App

open Go Discovery

/-- The settings a cycle depends on. -/
structure Config where
  lldp : Bool
  cdp : Bool
  fdb : Bool
  ospf : Bool
  bgp : Bool
  isis : Bool
  mplsTE : Bool
  arp : Bool
  maxVlans : Int
  disableV2MIB : Bool
  /-- The modules an override allows for an address, if one matches. -/
  modulesForIP : Net.IP → Option (List GoString)
  allowedNets : List Net.IPNet
  unconfirmedLinkTTLCycles : Int
  maxGraphDevices : Int
  maxGraphEdges : Int
  /-- The name this exporter pushes under, when it is a spoke. -/
  spokeID : Option GoString

/-- Everything a probe of one target sees: the configured site and labels, the
address the host name resolves to, the credentials that work, the device itself
and the order and time of each module's walk. -/
structure Probe where
  site : GoString
  labels : Map GoString GoString
  ip : Option Net.IP
  community : GoString
  v3 : Bool
  agent : Agent
  order : GoString → RangeOrder
  clock : GoString → Time

structure ProbeResult where
  targetIdx : Nat
  device : Device
  edges : List Edge
  outOfScope : List OutOfScopeNeighbour
  mgmtIP : GoString

/-! ## One target -/

def enabledModules (cfg : Config) : List GoString :=
  [(str "lldp", cfg.lldp), (str "cdp", cfg.cdp), (str "fdb", cfg.fdb), (str "ospf", cfg.ospf),
    (str "bgp", cfg.bgp), (str "isis", cfg.isis), (str "mpls_te", cfg.mplsTE)].filterMap
    (fun (proto, enabled) => if enabled then some proto else none)

/-- The walk of the module with the given name. -/
def walkModule (cfg : Config) (probe : Probe) (params : Params) (localDevice proto : GoString) :
    Except WalkError WalkResult :=
  let order := probe.order proto
  let now := probe.clock proto
  if proto = str "lldp" then Lldp.walk probe.agent order localDevice cfg.allowedNets now
  else if proto = str "cdp" then Cdp.walk probe.agent order localDevice cfg.allowedNets now
  else if proto = str "fdb" then Fdb.walk probe.agent order params localDevice now
  else if proto = str "ospf" then Ospf.walk probe.agent order localDevice cfg.allowedNets now
  else if proto = str "bgp" then Bgp.walk probe.agent order params localDevice cfg.allowedNets now
  else if proto = str "isis" then Isis.walk probe.agent localDevice cfg.allowedNets now
  else Mpls.walk probe.agent order localDevice cfg.allowedNets now

/-- The results of the modules that run and succeed. A module that fails is
left out; the others are not affected. -/
def walkModules (cfg : Config) (probe : Probe) (params : Params) (device : Device) (ip : Net.IP) :
    List (GoString × WalkResult) :=
  ((enabledModules cfg).filter (fun proto =>
    (cfg.modulesForIP ip).all (fun allowed => proto ∈ allowed))).filterMap (fun proto =>
      match walkModule cfg probe params device.id proto with
      | .ok result => some (proto, result)
      | .error _ => none)

def walkParams (cfg : Config) (probe : Probe) (device : Device) : Params :=
  { community := probe.community
    v3 := probe.v3
    maxVlans := cfg.maxVlans
    vendor := device.vendor
    useBGPV2MIB := !cfg.disableV2MIB }

/-- The device as it is recorded, with the site and labels of its target. -/
def configuredDevice (probe : Probe) (device : Device) : Device :=
  { device with
    site := probe.site
    labels := probe.labels.entries.foldl (fun labels entry => labels.insert entry.1 entry.2)
      device.labels }

/-- The result of a probe and the ARP table it read, if the target answers. -/
def probeTarget (cfg : Config) (targetIdx : Nat) (probe : Probe) :
    Option (ProbeResult × Map GoString GoString) :=
  match probe.ip with
  | none => none
  | some ip =>
      if cfg.allowedNets ≠ [] ∧ ipInNets ip cfg.allowedNets = false then none
      else match walkSystem probe.agent ip with
        | .error _ => none
        | .ok system =>
            let device := configuredDevice probe system
            let walks := walkModules cfg probe (walkParams cfg probe device) device ip
            let arp :=
              if cfg.arp then
                match walkARPTable probe.agent with
                | .ok table => table
                | .error _ => ∅
              else ∅
            some ({ targetIdx, device
                    edges := walks.flatMap (fun walk => walk.2.edges)
                    outOfScope := walks.flatMap (fun walk =>
                      walk.2.outOfScope.map (fun neighbour => { neighbour with proto := walk.1 }))
                    mgmtIP := Net.ipString ip }, arp)

/-! ## The whole cycle -/

def deduplicateDevices (devices : List Device) : List Device :=
  devices.foldl (fun kept device =>
    if kept.any (fun found => found.id = device.id) then kept else kept ++ [device]) []

/-- Neighbours are the same when reported by the same port with the same hint. -/
def sameNeighbour (first second : OutOfScopeNeighbour) : Bool :=
  first.reportingDevice = second.reportingDevice ∧ first.reportingPort = second.reportingPort ∧
    first.neighbourHint = second.neighbourHint

def deduplicateOOS (neighbours : List OutOfScopeNeighbour) : List OutOfScopeNeighbour :=
  neighbours.foldl (fun kept neighbour =>
    if kept.any (fun found => sameNeighbour found neighbour) then kept else kept ++ [neighbour]) []

/-- A target of the cycle whose probe has ended; a probe that panicked or was
never admitted ends without having run. -/
structure Arrival where
  targetIdx : Nat
  probe : Option Probe

def Arrival.outcome (cfg : Config) (arrival : Arrival) :
    Option (ProbeResult × Map GoString GoString) :=
  arrival.probe.bind (probeTarget cfg arrival.targetIdx)

/-- The results in the order of the configuration. -/
def probeResults (cfg : Config) (arrivals : List Arrival) : List ProbeResult :=
  ((arrivals.filterMap (Arrival.outcome cfg)).map Prod.fst).insertionSort
    (fun first second => first.targetIdx ≤ second.targetIdx)

/-- The ARP tables of all devices; the first probe to finish wins. -/
def mergedARP (order : RangeOrder) (cfg : Config) (arrivals : List Arrival) :
    Map GoString GoString :=
  (arrivals.filterMap (Arrival.outcome cfg)).foldl (fun table outcome =>
    (outcome.2.range order 4).foldl Map.insertNew table) ∅

/-- Management addresses to device IDs; the first configured target wins. -/
def managementIDs (results : List ProbeResult) : Map GoString GoString :=
  ((results.filter (fun result => result.mgmtIP ≠ [])).map (fun result =>
    (result.mgmtIP, result.device.id))).foldl Map.insertNew ∅

structure CycleResult where
  graph : Graph
  ages : Option (Map Graph.EdgeKey Int)
  conflicts : List Graph.Conflict
  failed : Nat

def runCycle (cfg : Config) (order : RangeOrder) (arrivals : List Arrival)
    (prevAges : Option (Map Graph.EdgeKey Int)) : CycleResult :=
  let results := probeResults cfg arrivals
  let canonicalEdges := synthesizeEdges order (results.flatMap ProbeResult.edges)
    (managementIDs results) (mergedARP order cfg arrivals)
  let reconciled := Graph.reconcile order canonicalEdges
  let aged := Graph.ageUnconfirmed order reconciled.1 prevAges cfg.unconfirmedLinkTTLCycles
  { graph :=
      { devices := deduplicateDevices (results.map ProbeResult.device)
        edges := reconciled.1.filter (fun edge => Graph.key edge ∉ aged.1)
        outOfScope := deduplicateOOS (results.flatMap ProbeResult.outOfScope) }
    ages := aged.2
    conflicts := reconciled.2
    failed := arrivals.countP (fun arrival => (arrival.outcome cfg).isNone) }

end TopologyExporter.App
