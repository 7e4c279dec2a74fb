import Mathlib.Data.List.Basic

/-!
# Metered message streams

`meteredMsgReadWriter` (`btp/metrics.go`) wraps a peer's message stream and marks two meters per
message, a packet count and a traffic volume, picked by the message's code and the stream's
protocol version (`meterKind`), inbound in `ReadMsg` and outbound in `WriteMsg`. The meters are
package variables, shared by every peer's stream. `newMeteredMsgWriter` wraps only when metrics
are enabled.

The model runs any sequence of `Init`, `ReadMsg` and `WriteMsg` calls on the peers' streams
(`Peers.step`, `Peers.run`), each read and write with what the wrapped stream returns. A read marks the
meters only when the wrapped stream returned a message, while a write marks them before the
message is handed on, so a failed send is counted too. Over every run, the inbound meters grow by
exactly the messages read on metered streams and their sizes, and the outbound meters by every
message written to one (`run_totals`), from one step's contribution (`Peers.totals_step`) and the
meters' sums (`Meters.total_mark`, `Meters.volume_mark`).
-/

namespace GoBtpereum.Btp

/-! ### Messages and meters -/

/-- Modelled from the spec's message table: `NewBlockHashesMsg` of `btp/protocol.go`; `btp63`
adds `NodeDataMsg` and `ReceiptsMsg`. -/
def newBlockHashesMsg : Nat := 0x01

/-- `TxMsg`. -/
def txMsg : Nat := 0x02

/-- `BlockHeadersMsg`. -/
def blockHeadersMsg : Nat := 0x04

/-- `BlockBodiesMsg`. -/
def blockBodiesMsg : Nat := 0x06

/-- `NewBlockMsg`. -/
def newBlockMsg : Nat := 0x07

/-- `NodeDataMsg`. -/
def nodeDataMsg : Nat := 0x0e

/-- `ReceiptsMsg`. -/
def receiptsMsg : Nat := 0x10

/-- `btp63`, the protocol version that adds the state and receipt messages. -/
def btp63 : Int := 63

/-- `p2p.Msg`, its code and its size. -/
structure Msg where
  code : Nat
  size : Nat
  deriving DecidableEq, Repr

/-- The total size of a list of messages. -/
def Msg.volume (msgs : List Msg) : Nat := msgs.foldr (fun msg acc => msg.size + acc) 0

@[simp] theorem Msg.volume_nil : Msg.volume [] = 0 := rfl

@[simp] theorem Msg.volume_cons (msg : Msg) (msgs : List Msg) :
    Msg.volume (msg :: msgs) = msg.size + Msg.volume msgs := rfl

theorem Msg.volume_append (a b : List Msg) : Msg.volume (a ++ b) = Msg.volume a + Msg.volume b := by
  induction a with
  | nil => simp
  | cons msg a ih => simp only [List.cons_append, Msg.volume_cons, ih]; omega

/-- The kinds of traffic the meters tell apart (`propTxn...Meter` to `misc...Meter`). -/
inductive Kind where
  | propTxn
  | propHash
  | propBlock
  | reqHeader
  | reqBody
  | reqState
  | reqReceipt
  | misc
  deriving DecidableEq, Repr

/-- Every kind, once. -/
def Kind.all : List Kind :=
  [.propTxn, .propHash, .propBlock, .reqHeader, .reqBody, .reqState, .reqReceipt, .misc]

/-- Inbound (`...InPacketsMeter`, `...InTrafficMeter`) or outbound. -/
inductive Direction where
  | inbound
  | outbound
  deriving DecidableEq, Repr

/-- The switch of `ReadMsg` and of `WriteMsg`: the kind a message with `code` is metered as on a
stream of protocol `version`. -/
def meterKind (version : Int) (code : Nat) : Kind :=
  if code = blockHeadersMsg then .reqHeader
  else if code = blockBodiesMsg then .reqBody
  else if version ≥ btp63 ∧ code = nodeDataMsg then .reqState
  else if version ≥ btp63 ∧ code = receiptsMsg then .reqReceipt
  else if code = newBlockHashesMsg then .propHash
  else if code = newBlockMsg then .propBlock
  else if code = txMsg then .propTxn
  else .misc

/-- The package's meters: the count of each packet meter and of each traffic meter. -/
structure Meters where
  packets : Direction → Kind → Nat
  traffic : Direction → Kind → Nat

/-- `packets.Mark(1)` and `traffic.Mark(int64(msg.Size))` on the two meters of a direction and
kind. -/
def Meters.mark (m : Meters) (d : Direction) (k : Kind) (size : Nat) : Meters :=
  ⟨fun d' k' => if d' = d ∧ k' = k then m.packets d' k' + 1 else m.packets d' k',
    fun d' k' => if d' = d ∧ k' = k then m.traffic d' k' + size else m.traffic d' k'⟩

/-- The packets counted in one direction, over all kinds. -/
def Meters.total (m : Meters) (d : Direction) : Nat :=
  Kind.all.foldr (fun k acc => m.packets d k + acc) 0

/-- The traffic counted in one direction, over all kinds. -/
def Meters.volume (m : Meters) (d : Direction) : Nat :=
  Kind.all.foldr (fun k acc => m.traffic d k + acc) 0

theorem sum_all_add (f : Kind → Nat) (k : Kind) (n : Nat) :
    Kind.all.foldr (fun k' acc => (if k' = k then f k' + n else f k') + acc) 0 =
      Kind.all.foldr (fun k' acc => f k' + acc) 0 + n := by
  cases k <;> simp [Kind.all] <;> omega

theorem Meters.total_mark (m : Meters) (d d' : Direction) (k : Kind) (size : Nat) :
    (m.mark d k size).total d' = m.total d' + if d' = d then 1 else 0 := by
  by_cases hd : d' = d
  · subst hd; simpa [Meters.total, Meters.mark] using sum_all_add (m.packets d') k 1
  · simp [Meters.total, Meters.mark, hd]

theorem Meters.volume_mark (m : Meters) (d d' : Direction) (k : Kind) (size : Nat) :
    (m.mark d k size).volume d' = m.volume d' + if d' = d then size else 0 := by
  by_cases hd : d' = d
  · subst hd; simpa [Meters.volume, Meters.mark] using sum_all_add (m.traffic d') k size
  · simp [Meters.volume, Meters.mark, hd]

/-! ### Streams -/

/-- A peer's stream as `newMeteredMsgWriter` returned it: the wrapped stream itself with metrics
off, else a `meteredMsgReadWriter` with the version `Init` last set. -/
inductive Stream where
  | plain
  | metered (version : Int)
  deriving DecidableEq, Repr

/-- `newMeteredMsgWriter`: with metrics enabled, a metered stream, its version still zero. -/
def newMeteredMsgWriter (enabled : Bool) : Stream := if enabled then .metered 0 else .plain

/-- `Init(version)`, which only a metered stream has. -/
def Stream.init : Stream → Int → Stream
  | .plain, _ => .plain
  | .metered _, version => .metered version

/-- `ReadMsg`: an error of the wrapped stream comes back unmetered; a message is metered inbound
under its kind and returned. -/
def Stream.readMsg (m : Meters) : Stream → Except String Msg → Meters × Except String Msg
  | .plain, r => (m, r)
  | .metered _, .error e => (m, .error e)
  | .metered version, .ok msg => (m.mark .inbound (meterKind version msg.code) msg.size, .ok msg)

/-- `WriteMsg`: the message is metered outbound, then handed to the wrapped stream, whose result
comes back. -/
def Stream.writeMsg (m : Meters) : Stream → Msg → Except String Unit → Meters × Except String Unit
  | .plain, _, r => (m, r)
  | .metered version, msg, r => (m.mark .outbound (meterKind version msg.code) msg.size, r)

/-- A call on peer `peer`'s stream; a read or a write carries what the wrapped stream returns. -/
inductive Op where
  | init (peer : Nat) (version : Int)
  | read (peer : Nat) (result : Except String Msg)
  | write (peer : Nat) (msg : Msg) (result : Except String Unit)

/-- The shared meters and the peers' streams. -/
structure Peers where
  meters : Meters
  streams : List Stream

/-- One call; a peer without a stream changes nothing. -/
def Peers.step (s : Peers) : Op → Peers
  | .init peer version =>
    match s.streams[peer]? with
    | some st => { s with streams := s.streams.set peer (st.init version) }
    | none => s
  | .read peer r =>
    match s.streams[peer]? with
    | some st => { s with meters := (st.readMsg s.meters r).1 }
    | none => s
  | .write peer msg r =>
    match s.streams[peer]? with
    | some st => { s with meters := (st.writeMsg s.meters msg r).1 }
    | none => s

/-- The calls of a run, in order. -/
def Peers.run (s : Peers) (ops : List Op) : Peers := ops.foldl Peers.step s

/-- Whether peer `peer`'s stream is metered. -/
def Peers.metered (s : Peers) (peer : Nat) : Bool :=
  match s.streams[peer]? with
  | some (.metered _) => true
  | _ => false

/-- The messages a call reads without error on a metered stream. -/
def Op.readOn (metered : Nat → Bool) : Op → List Msg
  | .read peer (.ok msg) => if metered peer then [msg] else []
  | _ => []

/-- The messages a call writes to a metered stream, whatever the send returned. -/
def Op.writtenOn (metered : Nat → Bool) : Op → List Msg
  | .write peer msg _ => if metered peer then [msg] else []
  | _ => []

theorem Peers.metered_step (s : Peers) (op : Op) : (s.step op).metered = s.metered := by
  funext q
  cases op with
  | init p v =>
    simp only [Peers.step]
    split
    · rename_i st hst
      simp only [Peers.metered, List.getElem?_set]
      split_ifs with hpq hlt
      · subst hpq; cases st <;> simp [Stream.init, hst]
      · subst hpq; exact absurd (List.getElem?_eq_some_iff.mp hst).1 hlt
      · rfl
    · rfl
  | read p r => simp only [Peers.step]; split <;> rfl
  | write p msg r => simp only [Peers.step]; split <;> rfl

theorem Peers.totals_step (s : Peers) (op : Op) :
    (s.step op).meters.total .inbound = s.meters.total .inbound + (op.readOn s.metered).length ∧
    (s.step op).meters.volume .inbound =
      s.meters.volume .inbound + Msg.volume (op.readOn s.metered) ∧
    (s.step op).meters.total .outbound =
      s.meters.total .outbound + (op.writtenOn s.metered).length ∧
    (s.step op).meters.volume .outbound =
      s.meters.volume .outbound + Msg.volume (op.writtenOn s.metered) ∧
    (s.step op).metered = s.metered := by
  refine ⟨?_, ?_, ?_, ?_, Peers.metered_step s op⟩ <;> cases op with
  | init p v => simp only [Peers.step]; split <;> simp [Op.readOn, Op.writtenOn]
  | read p r =>
    simp only [Peers.step]
    cases hst : s.streams[p]? with
    | none => cases r <;> simp [Op.readOn, Op.writtenOn, Peers.metered, hst]
    | some st =>
      cases st <;> cases r <;> simp [Op.readOn, Op.writtenOn, Peers.metered, hst, Stream.readMsg,
        Meters.total_mark, Meters.volume_mark]
  | write p msg r =>
    simp only [Peers.step]
    cases hst : s.streams[p]? with
    | none => simp [Op.readOn, Op.writtenOn, Peers.metered, hst]
    | some st =>
      cases st <;> simp [Op.readOn, Op.writtenOn, Peers.metered, hst, Stream.writeMsg,
        Meters.total_mark, Meters.volume_mark]

/-- Over every run, the inbound meters grow by the messages read on metered streams and their
sizes, and the outbound meters by every message written to a metered stream, sent or not. -/
theorem run_totals (s : Peers) (ops : List Op) :
    (s.run ops).meters.total .inbound =
      s.meters.total .inbound + (ops.flatMap (Op.readOn s.metered)).length ∧
    (s.run ops).meters.volume .inbound =
      s.meters.volume .inbound + Msg.volume (ops.flatMap (Op.readOn s.metered)) ∧
    (s.run ops).meters.total .outbound =
      s.meters.total .outbound + (ops.flatMap (Op.writtenOn s.metered)).length ∧
    (s.run ops).meters.volume .outbound =
      s.meters.volume .outbound + Msg.volume (ops.flatMap (Op.writtenOn s.metered)) := by
  induction ops generalizing s with
  | nil => simp [Peers.run]
  | cons op ops ih =>
    obtain ⟨h1, h2, h3, h4, hm⟩ := Peers.totals_step s op
    obtain ⟨i1, i2, i3, i4⟩ := ih (s.step op)
    simp only [Peers.run, List.foldl_cons] at i1 i2 i3 i4 ⊢
    rw [hm] at i1 i2 i3 i4
    simp only [List.flatMap_cons, List.length_append, Msg.volume_append]
    omega

end GoBtpereum.Btp
