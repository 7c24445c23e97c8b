/-
  THE RECEIVING SIDE of a cell message bus: which messages reach the subscribers, and
  how often.

  `deliver` keeps the last sequence number per sender, so a message that overtakes an
  older one of its sender shuts the older one out.
-/
import Peat.Cell.MessagingSender

namespace Peat.Cell

open Peat.Lib

/-! ## 1. Deliveries -/

/-- A message and the time of its arrival. -/
structure Delivery where
  message : CellMessage
  now : Nat
  deriving DecidableEq, Repr

namespace Delivery

/-- Not expired when it is delivered. -/
def Fresh (d : Delivery) : Prop := ¬ d.message.IsExpired d.now

instance (d : Delivery) : Decidable d.Fresh := inferInstanceAs (Decidable (¬ _))

/-- Numbered above all that the sender's messages had so far. -/
def Above (earlier : List Delivery) (d : Delivery) : Prop :=
  ∀ e ∈ earlier, e.Fresh → e.message.sender = d.message.sender → e.message.seq < d.message.seq

instance (earlier : List Delivery) (d : Delivery) : Decidable (d.Above earlier) :=
  inferInstanceAs (Decidable (∀ e ∈ earlier, _))

/-- Above the earlier ones, unless it was delivered before. -/
def FirstAbove (earlier : List Delivery) (d : Delivery) : Prop :=
  d.Fresh → (∀ e ∈ earlier, e.Fresh → e.message ≠ d.message) → d.Above earlier

instance (earlier : List Delivery) (d : Delivery) : Decidable (FirstAbove earlier d) :=
  inferInstanceAs (Decidable (_ → _ → _))

end Delivery

/-- The bus and the calls of its handlers. -/
structure Receiver where
  bus : CellMessageBus
  calls : List Call

namespace Receiver

def new (cellId nodeId : String) (handlers : List MessageHandler) : Receiver :=
  ⟨handlers.foldl CellMessageBus.subscribe (CellMessageBus.new cellId nodeId), []⟩

def step (r : Receiver) (d : Delivery) : Receiver :=
  ⟨(r.bus.deliver d.message d.now).1, r.calls ++ (r.bus.deliver d.message d.now).2⟩

def callCount (r : Receiver) (i : Nat) (m : CellMessage) : Nat :=
  r.calls.countP fun c => c.subscriber = i ∧ c.message = m

def Accepts (r : Receiver) (d : Delivery) : Prop :=
  d.Fresh ∧ ∀ lastSeq ∈ r.bus.receivedSeqs.lookup d.message.sender, lastSeq < d.message.seq

theorem step_cases (r : Receiver) (d : Delivery) :
    (r.Accepts d ∧ r.step d =
      ⟨{ r.bus with receivedSeqs := r.bus.receivedSeqs.insert d.message.sender d.message.seq },
        r.calls ++ CellMessageBus.callsOf r.bus.subscribers d.message⟩) ∨
    (¬ r.Accepts d ∧ r.step d = r) := by
  unfold step CellMessageBus.deliver Accepts
  by_cases hx : d.message.IsExpired d.now
  · exact .inr ⟨fun h => h.1 hx, by simp [hx]⟩
  rw [if_neg hx]
  cases hl : r.bus.receivedSeqs.lookup d.message.sender with
  | none => exact .inl ⟨⟨hx, nofun⟩, rfl⟩
  | some lastSeq =>
    by_cases hle : d.message.seq ≤ lastSeq
    · exact .inr ⟨fun h => absurd (h.2 lastSeq rfl) (Nat.not_lt.mpr hle), by simp [hle]⟩
    · refine .inl ⟨⟨hx, ?_⟩, by simp [hle]⟩
      rintro _ ⟨⟩
      exact Nat.lt_of_not_le hle

theorem subscribers_step (r : Receiver) (d : Delivery) :
    (r.step d).bus.subscribers = r.bus.subscribers := by
  rcases r.step_cases d with ⟨_, h⟩ | ⟨_, h⟩ <;> rw [h]

theorem countP_callsOf (handlers : List MessageHandler) (m m' : CellMessage) {i : Nat}
    (hi : i < handlers.length) :
    (CellMessageBus.callsOf handlers m').countP (fun c => c.subscriber = i ∧ c.message = m) =
      if m' = m then 1 else 0 := by
  unfold CellMessageBus.callsOf
  rw [List.countP_map]
  by_cases hm : m' = m
  · have hidx : (handlers.zipIdx.map Prod.snd).count i = 1 := by
      rw [List.zipIdx_map_snd]
      exact List.count_eq_one_of_mem List.nodup_range' (List.mem_range'_1.mpr ⟨Nat.zero_le _, by omega⟩)
    rw [if_pos hm, ← hidx, List.count, List.countP_map]
    exact List.countP_congr fun h _ => by simp [hm]
  · rw [if_neg hm]
    exact List.countP_eq_zero.mpr fun h _ => by simp [hm]

/-! ## 2. What a receiver has seen -/

section Runs

variable {cellId nodeId : String} {handlers : List MessageHandler}

theorem subscribers_new :
    (new cellId nodeId handlers).bus.subscribers = handlers ∧
      (new cellId nodeId handlers).bus.receivedSeqs = ∅ := by
  have h : ∀ bus : CellMessageBus,
      (handlers.foldl CellMessageBus.subscribe bus).subscribers = bus.subscribers ++ handlers ∧
        (handlers.foldl CellMessageBus.subscribe bus).receivedSeqs = bus.receivedSeqs := by
    induction handlers with
    | nil => exact fun bus => ⟨(List.append_nil _).symm, rfl⟩
    | cons handler handlers ih =>
      intro bus
      obtain ⟨h1, h2⟩ := ih (bus.subscribe handler)
      exact ⟨h1.trans (List.append_assoc _ _ _), h2⟩
  exact h _

variable (ds : List Delivery)

theorem subscribers_run : (run step (new cellId nodeId handlers) ds).bus.subscribers = handlers :=
  run_invariant (fun r : Receiver => r.bus.subscribers = handlers)
    (fun r d h => (r.subscribers_step d).trans h) subscribers_new.1 ds

structure IsLast (received : HashMap String Nat) (ds : List Delivery) : Prop where
  upper : ∀ d ∈ ds, d.Fresh → ∃ n ∈ received.lookup d.message.sender, d.message.seq ≤ n
  attained : ∀ s, ∀ n ∈ received.lookup s,
    ∃ d ∈ ds, d.Fresh ∧ d.message.sender = s ∧ d.message.seq = n

theorem accepts_of_isLast {r : Receiver} {ds : List Delivery} (h : IsLast r.bus.receivedSeqs ds)
    (d : Delivery) : r.Accepts d ↔ d.Fresh ∧ d.Above ds := by
  refine and_congr_right fun _ => ⟨fun hlt e he hf hs => ?_, fun ha n hn => ?_⟩
  · obtain ⟨n, hn, hle⟩ := h.upper e he hf
    exact Nat.lt_of_le_of_lt hle (hlt n (hs ▸ hn))
  · obtain ⟨e, he, hf, hs, rfl⟩ := h.attained _ n hn
    exact ha e he hf hs

theorem isLast_step {r : Receiver} {ds : List Delivery} (h : IsLast r.bus.receivedSeqs ds)
    (d : Delivery) : IsLast (r.step d).bus.receivedSeqs (ds ++ [d]) := by
  rcases r.step_cases d with ⟨⟨hfresh, hlt⟩, hstep⟩ | ⟨hno, hstep⟩
  · rw [hstep]
    constructor
    · intro e he hf
      by_cases hs : e.message.sender = d.message.sender
      · refine ⟨d.message.seq, ?_, ?_⟩
        · rw [hs, Option.mem_def, AList.lookup_insert]
        · rcases List.mem_append.mp he with he' | he'
          · obtain ⟨n, hn, hle⟩ := h.upper e he' hf
            exact hle.trans (hlt n (hs ▸ hn)).le
          · rw [List.mem_singleton.mp he']
      · rcases List.mem_append.mp he with he' | he'
        · obtain ⟨n, hn, hle⟩ := h.upper e he' hf
          refine ⟨n, ?_, hle⟩
          rw [Option.mem_def, AList.lookup_insert_ne hs]
          exact hn
        · exact absurd (congrArg (·.message.sender) (List.mem_singleton.mp he')) hs
    · intro s n hn
      by_cases hs : s = d.message.sender
      · rw [hs, Option.mem_def, AList.lookup_insert] at hn
        exact ⟨d, List.mem_append_right _ (List.mem_singleton_self d), hfresh, hs.symm,
          Option.some.inj hn⟩
      · rw [Option.mem_def, AList.lookup_insert_ne hs] at hn
        obtain ⟨e, he, hf, hes, hen⟩ := h.attained s n hn
        exact ⟨e, List.mem_append_left _ he, hf, hes, hen⟩
  · rw [hstep]
    constructor
    · intro e he hf
      rcases List.mem_append.mp he with he' | he'
      · exact h.upper e he' hf
      · -- an unexpired delivery that is dropped is not above the number kept
        obtain rfl := List.mem_singleton.mp he'
        by_contra hcon
        refine hno ⟨hf, fun n hn => Nat.lt_of_not_le fun hle => hcon ⟨n, hn, hle⟩⟩
    · intro s n hn
      obtain ⟨e, he, hf, hes, hen⟩ := h.attained s n hn
      exact ⟨e, List.mem_append_left _ he, hf, hes, hen⟩

theorem isLast_run : IsLast (run step (new cellId nodeId handlers) ds).bus.receivedSeqs ds := by
  induction ds using List.reverseRecOn with
  | nil =>
    rw [run_nil, subscribers_new.2]
    refine ⟨fun _ h => (nomatch h), fun s n hn => ?_⟩
    rw [Option.mem_def, AList.lookup_empty] at hn
    cases hn
  | append_singleton ds d ih =>
    rw [run_concat]
    exact isLast_step ih d

theorem accepts_iff (d : Delivery) :
    (run step (new cellId nodeId handlers) ds).Accepts d ↔ d.Fresh ∧ d.Above ds :=
  accepts_of_isLast (isLast_run ds) d

theorem callCount_concat (d : Delivery) (m : CellMessage) {i : Nat} (hi : i < handlers.length) :
    (run step (new cellId nodeId handlers) (ds ++ [d])).callCount i m =
      (run step (new cellId nodeId handlers) ds).callCount i m +
        if (d.Fresh ∧ d.Above ds) ∧ d.message = m then 1 else 0 := by
  rw [run_concat]
  rcases step_cases (run step (new cellId nodeId handlers) ds) d with ⟨hacc, hstep⟩ | ⟨hno, hstep⟩
  · have h := (accepts_iff ds d).mp hacc
    rw [hstep, callCount, List.countP_append, subscribers_run, countP_callsOf handlers m _ hi]
    simp [h, callCount]
  · have h := fun hd => hno ((accepts_iff ds d).mpr hd)
    rw [hstep, if_neg fun hd => h hd.1, Nat.add_zero]

theorem callCount_eq_zero {ds : List Delivery} {m : CellMessage}
    (hm : ∀ e ∈ ds, e.Fresh → e.message ≠ m) {i : Nat} (hi : i < handlers.length) :
    (run step (new cellId nodeId handlers) ds).callCount i m = 0 := by
  induction ds using List.reverseRecOn with
  | nil => rfl
  | append_singleton ds d ih =>
    have hd : ¬ ((d.Fresh ∧ d.Above ds) ∧ d.message = m) := fun h =>
      hm d (List.mem_append_right _ (List.mem_singleton_self d)) h.1.1 h.2
    rw [callCount_concat ds d m hi, ih fun e he => hm e (List.mem_append_left _ he), if_neg hd]

end Runs

/-! ## 3. Exactly once -/

/-- Every handler was called once for every unexpired message. -/
def ExactlyOnce (handlers : List MessageHandler) (ds : List Delivery) (r : Receiver) : Prop :=
  ∀ i < handlers.length, ∀ d ∈ ds, d.Fresh → r.callCount i d.message = 1

/-- The first deliveries of a sender's messages come in the order of their numbers. -/
def InOrder (ds : List Delivery) : Prop :=
  RunMeets (fun earlier d => earlier ++ [d]) Delivery.FirstAbove [] ds

instance (ds : List Delivery) : Decidable (InOrder ds) :=
  inferInstanceAs (Decidable (RunMeets _ _ _ _))

theorem inOrder_concat (ds : List Delivery) (d : Delivery) :
    InOrder (ds ++ [d]) ↔ InOrder ds ∧ Delivery.FirstAbove ds d := by
  have hrun : ∀ l r : List Delivery, run (fun earlier d => earlier ++ [d]) l r = l ++ r := by
    intro l r
    induction r generalizing l with
    | nil => exact (List.append_nil l).symm
    | cons a r ih => rw [run_cons, ih, List.append_assoc, List.singleton_append]
  unfold InOrder
  rw [runMeets_append, hrun]
  exact and_congr_right fun _ => and_iff_left trivial

section Once

variable {cellId nodeId : String} {handlers : List MessageHandler}

theorem not_above_of_copy {ds : List Delivery} {d e : Delivery} (he : e ∈ ds) (hf : e.Fresh)
    (hm : d.message = e.message) : ¬ d.Above ds := fun h =>
  absurd (h e he hf (by rw [hm])) (by rw [hm]; exact Nat.lt_irrefl _)

theorem exactlyOnce_concat (hne : handlers ≠ []) (ds : List Delivery) (d : Delivery) :
    ExactlyOnce handlers (ds ++ [d]) (run step (new cellId nodeId handlers) (ds ++ [d])) ↔
      ExactlyOnce handlers ds (run step (new cellId nodeId handlers) ds) ∧
        Delivery.FirstAbove ds d := by
  have hold : ∀ e ∈ ds, e.Fresh → ∀ i < handlers.length,
      (run step (new cellId nodeId handlers) (ds ++ [d])).callCount i e.message =
        (run step (new cellId nodeId handlers) ds).callCount i e.message := fun e he hf i hi => by
    rw [callCount_concat ds d _ hi, if_neg fun h => not_above_of_copy he hf h.2 h.1.2]
    rfl
  constructor
  · intro h
    refine ⟨fun i hi e he hf => ?_, fun hf hfirst => ?_⟩
    · rw [← hold e he hf i hi]
      exact h i hi e (List.mem_append_left _ he) hf
    · have h1 := h 0 (List.length_pos_iff.mpr hne) d
        (List.mem_append_right _ (List.mem_singleton_self d)) hf
      rw [callCount_concat ds d _ (List.length_pos_iff.mpr hne),
        callCount_eq_zero hfirst (List.length_pos_iff.mpr hne)] at h1
      by_contra hna
      rw [if_neg fun h => hna h.1.2] at h1
      cases h1
  · rintro ⟨h, hfirst⟩ i hi e he hf
    by_cases hcopy : ∃ e' ∈ ds, e'.Fresh ∧ e'.message = e.message
    · obtain ⟨e', he', hf', hm⟩ := hcopy
      rw [← hm, hold e' he' hf' i hi]
      exact h i hi e' he' hf'
    · -- the first copy is the last delivery, and it comes above the earlier ones
      have hnew : ∀ e' ∈ ds, e'.Fresh → e'.message ≠ e.message :=
        fun e' he' hf' hm => hcopy ⟨e', he', hf', hm⟩
      obtain rfl : e = d := by
        rcases List.mem_append.mp he with he' | he'
        · exact absurd rfl (hnew e he' hf)
        · exact List.mem_singleton.mp he'
      rw [callCount_concat ds e _ hi, callCount_eq_zero hnew hi,
        if_pos ⟨⟨hf, hfirst hf hnew⟩, rfl⟩]

/-- **When delivery is exactly once**: for every list of deliveries at a new bus, exactly when each message,
    when it first arrives, has a greater number than all earlier ones of its sender. -/
theorem exactlyOnce_iff (cellId nodeId : String) (handlers : List MessageHandler)
    (ds : List Delivery) :
    ExactlyOnce handlers ds (run step (new cellId nodeId handlers) ds) ↔
      handlers = [] ∨ InOrder ds := by
  by_cases hne : handlers = []
  · subst hne
    exact iff_of_true (fun i hi => absurd hi (Nat.not_lt_zero i)) (.inl rfl)
  rw [or_iff_right hne]
  induction ds using List.reverseRecOn with
  | nil => exact iff_of_true (fun _ _ _ h => (nomatch h)) trivial
  | append_singleton ds d ih => rw [exactlyOnce_concat hne, inOrder_concat, ih]

end Once

def overtakenSender : Journal :=
  run Journal.step (Journal.new "cell" "a")
    [.publish (.heartbeat "a") ⟨0, 0⟩, .publish (.heartbeat "a") ⟨0, 0⟩]

def overtakenDeliveries : List Delivery :=
  ⟨CellMessage.new "a" "cell" 2 (.heartbeat "a") 0, 0⟩ ::
    (overtakenSender.bus.processRetransmissions (fun _ => fromSecs 2) (fun _ => fromSecs 2)).2.map
      fun m => ⟨m, 2⟩

/-- **A message that is overtaken is lost**: every published message is delivered unexpired, and the
    subscriber is never called with the first one. -/
theorem overtaken_message_lost :
    (∀ m ∈ overtakenSender.published, ∃ d ∈ overtakenDeliveries, d.message = m ∧ d.Fresh) ∧
    (∀ d ∈ overtakenDeliveries, d.message ∈ overtakenSender.published) ∧
    (run step (new "cell" "b" [fun _ => .ok ()]) overtakenDeliveries).callCount 0
      (CellMessage.new "a" "cell" 1 (.heartbeat "a") 0) = 0 ∧
    ¬ ExactlyOnce [fun _ => .ok ()] overtakenDeliveries
      (run step (new "cell" "b" [fun _ => .ok ()]) overtakenDeliveries) := by
  have hlost : (run step (new "cell" "b" [fun _ => .ok ()]) overtakenDeliveries).callCount 0
      (CellMessage.new "a" "cell" 1 (.heartbeat "a") 0) = 0 := by decide
  refine ⟨by decide, by decide, hlost, fun h => ?_⟩
  have hone := h 0 Nat.zero_lt_one ⟨CellMessage.new "a" "cell" 1 (.heartbeat "a") 0, 2⟩
    (by decide) (by decide)
  dsimp only at hone
  exact absurd (hlost.symm.trans hone) Nat.zero_ne_one

end Receiver

end Peat.Cell
