/-
  DECODERS that read the fields of a string one by one, each at an offset they keep by
  hand.

  A decoder returns a value, returns an error, or panics: a slice out of range
  panics.
-/
import Mathlib.Data.List.Basic

namespace Peat.Lib

variable {ε α β : Type}

abbrev Decoder (ε α : Type) := ExceptT ε Option α

def orPanic (o : Option α) : Decoder ε α := ExceptT.lift o

/-- The decoder ends without a panic. -/
def Returns (d : Decoder ε α) : Prop := d.run ≠ none

theorem orPanic_eq_pure_iff {o : Option α} {a : α} :
    (orPanic o : Decoder ε α) = pure a ↔ o = some a := by
  cases o with
  | none => exact ⟨fun h => (by cases h), fun h => (by cases h)⟩
  | some b =>
    constructor
    · intro h
      cases h
      rfl
    · intro h
      cases h
      rfl

variable {f : α → Decoder ε β} {data x : List α} {start len : Nat}

theorem bind_eq_pure_iff {d : Decoder ε α} {b : β} :
    (d >>= f) = pure b ↔ ∃ a, d = pure a ∧ f a = pure b := by
  constructor
  · intro h
    match d with
    | none => cases h
    | some (.error _) => cases h
    | some (.ok a) => exact ⟨a, rfl, h⟩
  · intro ⟨a, hd, hf⟩
    rw [hd]
    exact hf

theorem returns_pure (a : α) : Returns (pure a : Decoder ε α) := Option.some_ne_none _

theorem returns_throw (e : ε) : Returns (throw e : Decoder ε α) := Option.some_ne_none _

theorem Returns.bind {d : Decoder ε α} (hd : Returns d) (hf : ∀ a, d = pure a → Returns (f a)) :
    Returns (d >>= f) := by
  match d with
  | none => exact absurd rfl hd
  | some (.error e) => exact Option.some_ne_none _
  | some (.ok a) => exact hf a rfl

def slice (data : List α) (start len : Nat) : Option (List α) :=
  if start + len ≤ data.length then some ((data.drop start).take len) else none

structure FieldAt (data : List α) (start len : Nat) (x : List α) : Prop where
  start_le : start ≤ data.length
  rest : data.drop start = x ++ data.drop (start + len)
  length : x.length = len

theorem slice_eq_some_iff : slice data start len = some x ↔ FieldAt data start len x := by
  unfold slice
  constructor
  · intro h
    split at h
    · rename_i hle
      cases h
      refine ⟨by omega, ?_, List.length_take_of_le (by rw [List.length_drop]; omega)⟩
      rw [← List.drop_drop, List.take_append_drop]
    · cases h
  · intro h
    have hdrop := congrArg List.length h.rest
    rw [List.length_append, List.length_drop, List.length_drop, h.length] at hdrop
    have hstart := h.start_le
    rw [if_pos (by omega), h.rest, List.take_left' h.length]

theorem FieldAt.of_drop {tail : List α} (hstart : start ≤ data.length)
    (h : data.drop start = x ++ tail) (hlen : x.length = len) :
    FieldAt data start len x ∧ start + len ≤ data.length ∧ data.drop (start + len) = tail := by
  have htail : data.drop (start + len) = tail := by
    rw [← List.drop_drop, h, List.drop_left' hlen]
  have hdrop := congrArg List.length h
  rw [List.length_append, List.length_drop] at hdrop
  exact ⟨⟨hstart, by rw [htail]; exact h, hlen⟩, by omega, htail⟩

def field (data : List α) (start len : Nat) (truncated : ε) : Decoder ε (List α) :=
  if start + len > data.length then throw truncated else orPanic (slice data start len)

theorem field_eq_pure_iff {truncated : ε} :
    field data start len truncated = pure x ↔ FieldAt data start len x := by
  rw [← slice_eq_some_iff, ← orPanic_eq_pure_iff (ε := ε)]
  unfold field
  split
  · rename_i hgt
    have hnone : slice data start len = none := if_neg (Nat.not_le.mpr hgt)
    rw [hnone]
    exact ⟨fun h => (by cases h), fun h => (by cases h)⟩
  · exact Iff.rfl

theorem field_returns (data : List α) (start len : Nat) (truncated : ε) :
    Returns (field data start len truncated) := by
  unfold field
  split
  · exact returns_throw truncated
  · rename_i hle
    rw [slice, if_pos (Nat.not_lt.mp hle)]
    exact Option.some_ne_none _

end Peat.Lib
