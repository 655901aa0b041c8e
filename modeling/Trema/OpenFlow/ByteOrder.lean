import Trema.OpenFlow.Protocol

namespace Trema.OpenFlow

open Library Layout

def abortIf (bad : Prop) [Decidable bad] : Exec Unit :=
  if bad then .error .aborted else .ok ()

def matchFields : List Field :=
  [.swap 4,.swap 2,.copy 6,.copy 6,.swap 2,.copy 1,.zero 1,.swap 2,.copy 1,.copy 1,.zero 2,
    .swap 4,.swap 4,.swap 2,.swap 2]

def ntohMatch (src : Bytes) (p : Nat) : Exec Bytes := convert matchFields src p

def phyPortFields : List Field :=
  [.swap 2,.copy 6,.copy 16,.swap 4,.swap 4,.swap 4,.swap 4,.swap 4,.swap 4]

def ntohPhyPort (src : Bytes) (p : Nat) : Exec Bytes := convert phyPortFields src p

def actionFields : ActionType → List Field
  | .output => [.swap 2,.swap 2,.swap 2,.swap 2]
  | .setVlanVid => [.swap 2,.swap 2,.swap 2,.zero 2]
  | .setVlanPcp => [.swap 2,.swap 2,.copy 1,.zero 3]
  | .stripVlan => [.swap 2,.swap 2,.zero 4]
  | .setDlSrc => [.swap 2,.swap 2,.copy 6,.zero 6]
  | .setDlDst => [.swap 2,.swap 2,.copy 6,.zero 6]
  | .setNwSrc => [.swap 2,.swap 2,.swap 4]
  | .setNwDst => [.swap 2,.swap 2,.swap 4]
  | .setNwTos => [.swap 2,.swap 2,.copy 1,.zero 3]
  | .setTpSrc => [.swap 2,.swap 2,.swap 2,.zero 2]
  | .setTpDst => [.swap 2,.swap 2,.swap 2,.zero 2]
  | .enqueue => [.swap 2,.swap 2,.swap 2,.zero 6,.swap 4]
  | .vendor => [.swap 2,.swap 2,.swap 4]

-- The converters exist once for each direction; they differ only in the order in which a
-- 16-bit field of the source is read.
inductive Order where
  | net
  | host
deriving DecidableEq, Repr

def Order.u16 : Order → Bytes → Nat → UInt16
  | .net => be16
  | .host => host16

def Order.read16 (order : Order) (src : Bytes) (p : Nat) : Exec UInt16 :=
  within src (p + 2) (order.u16 src p)

def sub16 (a b : Nat) : Nat := (a + 65536 - b) % 65536

theorem sub16_of_le {a b : Nat} (h : b ≤ a) (ha : a < 65536) : sub16 a b = a - b := by
  unfold sub16
  omega

theorem sub16_lt (a b : Nat) : sub16 a b < 65536 := Nat.mod_lt _ (by omega)

def subSize (a b : Nat) : Nat := if b ≤ a then a - b else a + 18446744073709551616 - b

theorem subSize_of_le {a b : Nat} (h : b ≤ a) : subSize a b = a - b := if_pos h

def convertActionVendor (order : Order) (src : Bytes) (p : Nat) : Exec Bytes := do
  let head ← convert (actionFields .vendor) src p
  let len ← order.read16 src (p + 2)
  let body ← load src (p + 8) (subSize len.toNat 8)
  pure (head ++ body)

def convertAction (order : Order) (src : Bytes) (p : Nat) : Exec Bytes := do
  let type ← order.read16 src p
  match ActionType.ofCode type with
  | none => .error .aborted
  | some .vendor => convertActionVendor order src p
  | some t => convert (actionFields t) src p

def ntohAction : Bytes → Nat → Exec Bytes := convertAction .net
def htonAction : Bytes → Nat → Exec Bytes := convertAction .host

def flowStatsFields : List Field :=
  [.swap 2,.copy 1,.zero 1] ++ matchFields ++
    [.swap 4,.swap 4,.swap 2,.swap 2,.swap 2,.zero 6,.swap 8,.swap 8,.swap 8]

structure Conversion where
  remaining : Nat
  src : Nat
  dst : Nat
  out : Bytes
deriving DecidableEq, Repr

def convertActionStep (order : Order) (fs : Bytes) (s : Conversion) : Exec Conversion := do
  let cells ← convertAction order fs s.src
  let out ← store s.out s.dst cells
  let len ← order.read16 fs (s.src + 2)
  pure ⟨sub16 s.remaining len.toNat,s.src + len.toNat,s.dst + len.toNat,out⟩

def convertFlowStats (order : Order) (fuel : Nat) (src : Bytes) (p : Nat) (dst : Bytes)
    (q : Nat) : Exec Bytes := do
  let length ← order.read16 src p
  let fs ← load src p length.toNat
  let head ← convert flowStatsFields fs 0
  let out ← store dst q head
  let last ← whileLoop (fun s => decide (8 ≤ s.remaining)) (convertActionStep order fs) fuel
    ⟨sub16 length.toNat 88,88,q + 88,out⟩
  pure last.out

def ntohFlowStats := convertFlowStats .net
def htonFlowStats := convertFlowStats .host

def aggregateStatsFields : List Field := [.swap 8,.swap 8,.swap 4,.zero 4]

def tableStatsFields : List Field :=
  [.copy 1,.zero 3,.copy 32,.swap 4,.swap 4,.swap 4,.swap 8,.swap 8]

def portStatsFields : List Field :=
  [.swap 2,.zero 6,.swap 8,.swap 8,.swap 8,.swap 8,.swap 8,.swap 8,.swap 8,.swap 8,.swap 8,
    .swap 8,.swap 8,.swap 8]

def queueStatsFields : List Field := [.swap 2,.zero 2,.swap 4,.swap 8,.swap 8,.swap 8]

def ntohAggregateStats (src : Bytes) (p : Nat) : Exec Bytes := convert aggregateStatsFields src p
def ntohTableStats (src : Bytes) (p : Nat) : Exec Bytes := convert tableStatsFields src p
def ntohPortStats (src : Bytes) (p : Nat) : Exec Bytes := convert portStatsFields src p
def ntohQueueStats (src : Bytes) (p : Nat) : Exec Bytes := convert queueStatsFields src p

def convertQueueProperty (order : Order) (src : Bytes) (p : Nat) (dst : Bytes) (q : Nat) :
    Exec Bytes := do
  let property ← order.read16 src p
  abortIf (ofpqtMinRate < property)
  let len ← order.read16 src (p + 2)
  abortIf (len = 0)
  let ph ← load src p len.toNat
  let head ← convert [.swap 2,.swap 2] ph 0
  let out ← store dst q head
  if property = ofpqtMinRate then
    let rate ← convert [.swap 2] ph 8
    store out (q + 8) rate
  else
    pure out

def ntohQueueProperty := convertQueueProperty .net
def htonQueueProperty := convertQueueProperty .host

def convertPropertyStep (order : Order) (pq : Bytes) (s : Conversion) : Exec Conversion := do
  let out ← convertQueueProperty order pq s.src s.out s.dst
  let len ← order.read16 pq (s.src + 2)
  pure ⟨sub16 s.remaining len.toNat,s.src + len.toNat,s.dst + len.toNat,out⟩

def packetQueueFields : List Field := [.swap 4,.swap 2,.zero 2]

def convertPacketQueue (order : Order) (fuel : Nat) (src : Bytes) (p : Nat) (dst : Bytes)
    (q : Nat) : Exec Bytes := do
  let len ← order.read16 src (p + 4)
  abortIf (len = 0)
  let pq ← load src p len.toNat
  let head ← convert packetQueueFields pq 0
  let out ← store dst q head
  let last ← whileLoop (fun s => decide (8 ≤ s.remaining)) (convertPropertyStep order pq) fuel
    ⟨sub16 len.toNat 8,8,q + 8,out⟩
  pure last.out

def ntohPacketQueue := convertPacketQueue .net
def htonPacketQueue := convertPacketQueue .host

end Trema.OpenFlow
