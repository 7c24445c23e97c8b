/-
  THE CELL MESSAGE BUS of cell/messaging.rs: messages, the outbound queue, the
  retransmission table and the delivery to subscribers.

  Every call of a bus function is one step; clock readings are arguments. `Clock` holds
  the Unix seconds that stamp messages and the monotonic clock (nanoseconds). Sequence
  numbers (`u64`) are natural numbers. The bus ignores what a handler returns, so
  `deliver` comes down to the list of its `Call`s.
-/
import Peat.Lib.HashMap
import Peat.Lib.StableSort
import Peat.Schema

namespace Peat.Cell

open Peat.Lib

structure Clock where
  unix : Nat
  instant : Nat
  deriving DecidableEq, Repr

def fromSecs (secs : Nat) : Nat := secs * 1000000000

/-! ## 1. Messages -/

inductive CellRole where
  | leader | sensor | compute | relay | strike | support | follower
  deriving DecidableEq, Repr

inductive MessagePriority where
  | low | normal | high | critical
  deriving DecidableEq, Repr

def MessagePriority.rank : MessagePriority → Nat
  | .low => 0 | .normal => 1 | .high => 2 | .critical => 3

inductive RoutingContext where
  | intraCell | cellToZone | zoneToCell | intraZone
  deriving DecidableEq, Repr

inductive CellMessageType where
  | join (nodeId : String) (capabilities : List Capability)
  | leave (nodeId reason : String)
  | capabilityAnnounce (nodeId : String) (capabilities : List Capability)
  | leaderAnnounce (leaderId : String) (electionRound : UInt32)
  | heartbeat (nodeId : String)
  | roleAssignment (nodeId : String) (role : CellRole) (score : ℚ) (isPrimary : Bool)
  | statusUpdate (nodeId status : String)
  | ack (messageSeq : Nat)
  | nack (messageSeq : Nat) (reason : String)
  deriving DecidableEq, Repr

structure CellMessage where
  messageId : String
  seq : Nat
  sender : String
  cellId : String
  priority : MessagePriority
  routingContext : RoutingContext
  payload : CellMessageType
  timestamp : Nat
  ttl : Nat
  deriving DecidableEq, Repr

namespace CellMessage

def new (sender cellId : String) (seq : Nat) (payload : CellMessageType) (now : Nat) :
    CellMessage where
  messageId := sender ++ "-" ++ toString seq
  seq := seq
  sender := sender
  cellId := cellId
  priority := .normal
  routingContext := .intraCell
  payload := payload
  timestamp := now
  ttl := 30

def IsExpired (m : CellMessage) (now : Nat) : Prop := m.ttl < now - m.timestamp

instance (m : CellMessage) (now : Nat) : Decidable (m.IsExpired now) :=
  inferInstanceAs (Decidable (_ < _))

/-- Of a priority at least as high. -/
def NotAfter (a b : CellMessage) : Prop := b.priority.rank ≤ a.priority.rank

instance : DecidableRel NotAfter := fun _ _ => inferInstanceAs (Decidable (_ ≤ _))

instance : IsTrans CellMessage NotAfter := ⟨fun _ _ _ hab hbc => le_trans hbc hab⟩

instance : Std.Total NotAfter := ⟨fun a b => le_total b.priority.rank a.priority.rank⟩

end CellMessage

/-! ## 2. The bus -/

inductive DeliveryStatus where
  | pending | delivered | acknowledged | failed
  deriving DecidableEq, Repr

structure TrackedMessage where
  message : CellMessage
  status : DeliveryStatus
  retryCount : Nat
  lastSend : Nat
  deriving DecidableEq, Repr

abbrev MessageHandler := CellMessage → Except String Unit

structure Call where
  subscriber : Nat
  message : CellMessage
  outcome : Except String Unit

structure CellMessageBus where
  cellId : String
  nodeId : String
  nextSeq : Nat
  outboundQueue : List CellMessage
  trackedMessages : HashMap Nat TrackedMessage
  receivedSeqs : HashMap String Nat
  subscribers : List MessageHandler
  retryTimeout : Nat
  maxRetries : Nat

namespace CellMessageBus

def new (cellId nodeId : String) : CellMessageBus where
  cellId := cellId
  nodeId := nodeId
  nextSeq := 1
  outboundQueue := []
  trackedMessages := ∅
  receivedSeqs := ∅
  subscribers := []
  retryTimeout := fromSecs 2
  maxRetries := 3

def subscribe (bus : CellMessageBus) (handler : MessageHandler) : CellMessageBus :=
  { bus with subscribers := bus.subscribers ++ [handler] }

def nextMessage (bus : CellMessageBus) (payload : CellMessageType) (clock : Clock) : CellMessage :=
  CellMessage.new bus.nodeId bus.cellId bus.nextSeq payload clock.unix

def publish (bus : CellMessageBus) (payload : CellMessageType) (clock : Clock) :
    CellMessageBus × Nat :=
  let seq := bus.nextSeq
  let message := bus.nextMessage payload clock
  ({ bus with
      nextSeq := bus.nextSeq + 1
      outboundQueue := (bus.outboundQueue ++ [message]).insertionSort CellMessage.NotAfter
      trackedMessages := bus.trackedMessages.insert seq ⟨message, .pending, 0, clock.instant⟩ },
    seq)

def callsOf (handlers : List MessageHandler) (message : CellMessage) : List Call :=
  handlers.zipIdx.map fun h => ⟨h.2, message, h.1 message⟩

def deliver (bus : CellMessageBus) (message : CellMessage) (now : Nat) :
    CellMessageBus × List Call :=
  if message.IsExpired now then (bus, [])
  else
    match bus.receivedSeqs.lookup message.sender with
    | some lastSeq =>
      if message.seq ≤ lastSeq then (bus, [])
      else ({ bus with receivedSeqs := bus.receivedSeqs.insert message.sender message.seq },
        callsOf bus.subscribers message)
    | none => ({ bus with receivedSeqs := bus.receivedSeqs.insert message.sender message.seq },
        callsOf bus.subscribers message)

def acknowledge (bus : CellMessageBus) (messageSeq : Nat) : CellMessageBus :=
  match bus.trackedMessages.lookup messageSeq with
  | some msg =>
    { bus with
      trackedMessages := bus.trackedMessages.insert messageSeq { msg with status := .acknowledged } }
  | none => bus

def TimedOut (bus : CellMessageBus) (msg : TrackedMessage) (seen : Nat) : Prop :=
  bus.retryTimeout ≤ seen - msg.lastSend

instance (bus : CellMessageBus) (msg : TrackedMessage) (seen : Nat) :
    Decidable (bus.TimedOut msg seen) := inferInstanceAs (Decidable (_ ≤ _))

/-- The body of the loop of `process_retransmissions`: `seen` is the reading behind `elapsed()`,
    `sent` the one that becomes the new `last_send`. Returns the messages to send again. -/
def retransmit (bus : CellMessageBus) (seen sent : Nat) (msg : TrackedMessage) :
    TrackedMessage × List CellMessage :=
  if msg.status = .acknowledged then (msg, [])
  else if bus.TimedOut msg seen then
    if bus.maxRetries ≤ msg.retryCount then ({ msg with status := .failed }, [])
    else
      ({ msg with retryCount := msg.retryCount + 1, lastSend := sent, status := .delivered },
        [msg.message])
  else (msg, [])

def StillTracked (msg : TrackedMessage) : Bool :=
  msg.status != .acknowledged && msg.status != .failed

def processRetransmissions (bus : CellMessageBus) (seen sent : Nat → Nat) :
    CellMessageBus × List CellMessage :=
  ({ bus with
      trackedMessages := retain (fun _ => StillTracked)
        (mapVal (fun seq msg => (bus.retransmit (seen seq) (sent seq) msg).1) bus.trackedMessages) },
    bus.trackedMessages.entries.flatMap fun e =>
      (bus.retransmit (seen e.1) (sent e.1) e.2).2)

def getPendingMessages (bus : CellMessageBus) : CellMessageBus × List CellMessage :=
  ({ bus with outboundQueue := [] }, bus.outboundQueue)

/-! ## 3. The queue and the retransmission table, entry by entry -/

theorem mem_queue_publish {bus : CellMessageBus} {payload : CellMessageType} {clock : Clock}
    {m : CellMessage} :
    m ∈ (bus.publish payload clock).1.outboundQueue ↔
      m ∈ bus.outboundQueue ∨ m = bus.nextMessage payload clock := by
  show m ∈ List.insertionSort _ (bus.outboundQueue ++ [_]) ↔ _
  rw [List.mem_insertionSort, List.mem_append, List.mem_singleton]

variable (bus : CellMessageBus)

theorem lookup_publish (payload : CellMessageType) (clock : Clock) (seq : Nat) :
    (bus.publish payload clock).1.trackedMessages.lookup seq =
      if seq = bus.nextSeq then
        some ⟨bus.nextMessage payload clock, .pending, 0, clock.instant⟩
      else bus.trackedMessages.lookup seq := lookup_insert_eq_ite _ _ _ _

theorem lookup_acknowledge (messageSeq seq : Nat) :
    (bus.acknowledge messageSeq).trackedMessages.lookup seq =
      if seq = messageSeq then
        (bus.trackedMessages.lookup seq).map fun msg => { msg with status := .acknowledged }
      else bus.trackedMessages.lookup seq := by
  unfold acknowledge
  cases h : bus.trackedMessages.lookup messageSeq with
  | none =>
    by_cases e : seq = messageSeq
    · rw [if_pos e, e, h]
      rfl
    · rw [if_neg e]
  | some msg =>
    by_cases e : seq = messageSeq
    · rw [if_pos e, e, h]
      exact AList.lookup_insert _
    · rw [if_neg e]
      exact AList.lookup_insert_ne e

theorem lookup_processRetransmissions (seen sent : Nat → Nat) (seq : Nat) :
    (bus.processRetransmissions seen sent).1.trackedMessages.lookup seq =
      ((bus.trackedMessages.lookup seq).map fun msg =>
        (bus.retransmit (seen seq) (sent seq) msg).1).filter StillTracked := by
  rw [← lookup_mapVal (fun seq msg => (bus.retransmit (seen seq) (sent seq) msg).1)]
  exact lookup_retain _ _ _

end CellMessageBus

end Peat.Cell
