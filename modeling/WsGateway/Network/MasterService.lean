import WsGateway.Base.Stream
import WsGateway.Library.Tables

/-!
# The DPDK master service

`network/dpdk/master_serivce.cpp`: how `init` fills the redirection table of a port,
which assigns the hash values of received packets to queues, and reads it back.
`rte_ethdev`, the card and the logger are outside the repository: `EthDev` holds their
answers, and everything is stated for every such `EthDev`.
-/

namespace WsGateway.Network

open Library

/-- `RTE_ETH_RETA_GROUP_SIZE`. -/
def kRetaGroupSize : Nat := 64

/-- `rte_eth_rss_reta_entry64`: a group of entries, and the mask of those that are meant. -/
structure RetaEntry64 where
  mask : UInt64
  reta : Vector UInt16 kRetaGroupSize
  deriving DecidableEq, Repr

/-- What `rte_eth_dev_info_get` tells about a port. -/
structure EthDevInfo where
  maxRxQueues : UInt16
  retaSize : UInt16

/-- `rte_ethdev` and the logger: what they answer for a port. -/
structure EthDev where
  /-- What `rte_eth_dev_rss_reta_update` returns. -/
  rssRetaUpdate : UInt16 → Int
  /-- What `rte_eth_dev_rss_reta_query` returns. -/
  rssRetaQuery : UInt16 → Int
  /-- The queues it stores in a group. -/
  rssReta : UInt16 → Nat → Vector UInt16 kRetaGroupSize
  /-- Whether a line of level `INFO` is logged; if it is not, its arguments are not evaluated. -/
  logsInfo : Bool

/-- The two vectors of `init`. -/
structure RetaTables where
  retaConf : Table RetaEntry64 := .empty
  retaReadback : Table RetaEntry64 := .empty

namespace DpdkMasterService

def onRetaConf {α : Type} (x : Prog (Table RetaEntry64) α) : Prog RetaTables α :=
  zoom (fun s => s.retaConf) (fun s t => { s with retaConf := t }) x

def onRetaReadback {α : Type} (x : Prog (Table RetaEntry64) α) : Prog RetaTables α :=
  zoom (fun s => s.retaReadback) (fun s t => { s with retaReadback := t }) x

/-- The number of receive queues in use. -/
def nbRxQueues (info : EthDevInfo) : UInt16 := min 2 info.maxRxQueues

/-- The number of groups; the sum is an `int`. -/
def retaConfSize (retaSize : UInt16) : UInt16 :=
  UInt16.ofNat ((retaSize.toNat + kRetaGroupSize - 1) / kRetaGroupSize)

/-- A new vector of groups, all bytes of which are zero. -/
def newGroups (size : UInt16) : Table RetaEntry64 :=
  .ofSize size.toNat ⟨0, .replicate kRetaGroupSize 0⟩

/-- The queue of an entry. -/
def queueOf (retaSize nbRxQueues i : UInt16) : UInt16 :=
  if i.toNat < retaSize.toNat / nbRxQueues.toNat then 0 else 1

/-- The loop body that sets an entry of `reta_conf`. -/
def setEntry (retaSize nbRxQueues i : UInt16) : Prog (Table RetaEntry64) Unit := do
  let retaIdx := UInt16.ofNat (i.toNat / kRetaGroupSize)
  let retaPos := UInt16.ofNat (i.toNat % kRetaGroupSize)
  let queue := queueOf retaSize nbRxQueues i
  Table.update retaIdx.toNat fun e => { e with mask := e.mask ||| 1 <<< retaPos.toUInt64 }
  Table.update retaIdx.toNat fun e =>
    { e with reta := e.reta.setIfInBounds retaPos.toNat queue }

/-- The loop body that asks for all entries of a group of `reta_readback`. -/
def askForGroup (i : UInt16) : Prog (Table RetaEntry64) Unit :=
  Table.update i.toNat fun e => { e with mask := ~~~0 }

/-- The query fills the groups it was given. -/
def queried (dev : EthDev) (portId : UInt16) (table : Table RetaEntry64) : Table RetaEntry64 :=
  { table with elems := table.elems.mapIdx fun i e => { e with reta := dev.rssReta portId i } }

/-- The groups and positions of the sample entries. -/
def kSamples : List (Nat × Nat) := [(0, 0), (0, 1), (1, 62), (1, 63), (3, 62), (3, 63)]

def readSample (sample : Nat × Nat) : Prog (Table RetaEntry64) (Option UInt16) := do
  let e ← Table.read sample.1
  return e.bind fun e => e.reta[sample.2]?

/-- The part of `init` that configures the redirection table of a port. It returns the sample
entries if it logs them. -/
def configureReta (dev : EthDev) (portId : UInt16) (info : EthDevInfo) :
    Prog RetaTables (Option (List (Option UInt16))) := do
  if nbRxQueues info > 1 then
    let retaSize := info.retaSize
    let size := retaConfSize retaSize
    modify fun s => { s with retaConf := newGroups size }
    onRetaConf (countTo retaSize (setEntry retaSize (nbRxQueues info)) 0)
    require (dev.rssRetaUpdate portId == 0)
      ("Failed to update RETA for port " ++ toString portId.toNat)
    modify fun s => { s with retaReadback := newGroups size }
    onRetaReadback (countTo size askForGroup 0)
    let ret := dev.rssRetaQuery portId
    modify fun s => { s with retaReadback := queried dev portId s.retaReadback }
    if ret == 0 && dev.logsInfo then
      return some (← onRetaReadback (kSamples.mapM readSample))
    return none
  else return none

end DpdkMasterService

end WsGateway.Network
