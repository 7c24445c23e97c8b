/-
  JSON TEXTS: the grammar of RFC 8259 as a relation between a text and the tree it
  stands for.

  A tree keeps the text of a number and the code points of a string; an escape
  with four hexadecimal digits stands for its code unit, as it is written.
-/
import Mathlib.Data.List.Basic

namespace Peat.Lib

/-! ## 1. The grammar -/

inductive Json where
  | null
  | bool (b : Bool)
  | num (text : List Char)
  | str (units : List Nat)
  | arr (items : List Json)
  | obj (members : List (List Nat × Json))

def Blank (t : List Char) : Prop := ∀ c ∈ t, c = ' ' ∨ c = '\t' ∨ c = '\n' ∨ c = '\r'

def Digits (t : List Char) : Prop := t ≠ [] ∧ ∀ c ∈ t, c.isDigit = true

def NumberText (t : List Char) : Prop :=
  ∃ sign whole frac exp, t = sign ++ (whole ++ (frac ++ exp)) ∧
    (sign = [] ∨ sign = ['-']) ∧
    (Digits whole ∧ (whole.head? = some '0' → whole = ['0'])) ∧
    (frac = [] ∨ ∃ ds, Digits ds ∧ frac = '.' :: ds) ∧
    (exp = [] ∨ ∃ e s ds, (e = 'e' ∨ e = 'E') ∧ (s = [] ∨ s = ['+'] ∨ s = ['-']) ∧ Digits ds ∧
      exp = e :: (s ++ ds))

def quotationMark : Char := '\x22'

def backslash : Char := '\x5c'

def leftBrace : Char := '\x7b'

def rightBrace : Char := '\x7d'

def shortEscape (c : Char) : Option Char :=
  if c = quotationMark then some quotationMark
  else if c = backslash then some backslash
  else if c = '/' then some '/'
  else if c = 'b' then some '\x08'
  else if c = 'f' then some '\x0c'
  else if c = 'n' then some '\n'
  else if c = 'r' then some '\r'
  else if c = 't' then some '\t'
  else none

def hexValue (c : Char) : Option Nat :=
  if '0' ≤ c ∧ c ≤ '9' then some (c.toNat - 48)
  else if 'a' ≤ c ∧ c ≤ 'f' then some (c.toNat - 87)
  else if 'A' ≤ c ∧ c ≤ 'F' then some (c.toNat - 55)
  else none

inductive StringBody : List Char → List Nat → Prop where
  | nil : StringBody [] []
  | plain {c : Char} {t : List Char} {s : List Nat} (hquote : c ≠ quotationMark)
      (hslash : c ≠ backslash) (hcontrol : 32 ≤ c.toNat) (ht : StringBody t s) :
      StringBody (c :: t) (c.toNat :: s)
  | short {e c : Char} {t : List Char} {s : List Nat} (he : shortEscape e = some c)
      (ht : StringBody t s) : StringBody (backslash :: e :: t) (c.toNat :: s)
  | unicode {h₁ h₂ h₃ h₄ : Char} {d₁ d₂ d₃ d₄ : Nat} {t : List Char} {s : List Nat}
      (hd₁ : hexValue h₁ = some d₁) (hd₂ : hexValue h₂ = some d₂) (hd₃ : hexValue h₃ = some d₃)
      (hd₄ : hexValue h₄ = some d₄) (ht : StringBody t s) :
      StringBody (backslash :: 'u' :: h₁ :: h₂ :: h₃ :: h₄ :: t)
        ((((d₁ * 16 + d₂) * 16 + d₃) * 16 + d₄) :: s)

def KeyText (t : List Char) (s : List Nat) : Prop :=
  ∃ l body r, Blank l ∧ Blank r ∧ StringBody body s ∧
    t = l ++ (quotationMark :: (body ++ (quotationMark :: r)))

/-- **The grammar.** The text stands for the tree. -/
inductive Denotes : List Char → Json → Prop where
  | ws {l t r : List Char} {j : Json} (hl : Blank l) (hr : Blank r) (ht : Denotes t j) :
      Denotes (l ++ (t ++ r)) j
  | null : Denotes ['n', 'u', 'l', 'l'] .null
  | true : Denotes ['t', 'r', 'u', 'e'] (.bool true)
  | false : Denotes ['f', 'a', 'l', 's', 'e'] (.bool false)
  | num {t : List Char} (h : NumberText t) : Denotes t (.num t)
  | str {t : List Char} {s : List Nat} (h : StringBody t s) :
      Denotes (quotationMark :: (t ++ [quotationMark])) (.str s)
  | emptyArr {l : List Char} (hl : Blank l) : Denotes ('[' :: (l ++ [']'])) (.arr [])
  | arr (items : List (List Char × Json)) (hne : items ≠ [])
      (h : ∀ e ∈ items, Denotes e.1 e.2) :
      Denotes ('[' :: ([','].intercalate (items.map (·.1)) ++ [']'])) (.arr (items.map (·.2)))
  | emptyObj {l : List Char} (hl : Blank l) :
      Denotes (leftBrace :: (l ++ [rightBrace])) (.obj [])
  | obj (members : List ((List Char × List Nat) × (List Char × Json))) (hne : members ≠ [])
      (hkeys : ∀ m ∈ members, KeyText m.1.1 m.1.2) (h : ∀ m ∈ members, Denotes m.2.1 m.2.2) :
      Denotes (leftBrace :: ([','].intercalate (members.map fun m => m.1.1 ++ ':' :: m.2.1) ++
          [rightBrace]))
        (.obj (members.map fun m => (m.1.2, m.2.2)))

def IsJson (t : List Char) : Prop := ∃ j, Denotes t j

/-! ## 2. Writing -/

def shortEscapes : List (Char × Char) :=
  [(quotationMark, quotationMark), (backslash, backslash), ('b', '\x08'), ('f', '\x0c'),
    ('n', '\n'), ('r', '\r'), ('t', '\t')]

def escape (c : Char) : List Char :=
  match shortEscapes.find? fun p => decide (p.2 = c) with
  | some (e, _) => [backslash, e]
  | none =>
    if c.toNat < 32 then
      [backslash, 'u', '0', '0', Nat.digitChar (c.toNat / 16), Nat.digitChar (c.toNat % 16)]
    else [c]

def quote (s : List Char) : List Char := quotationMark :: (s.flatMap escape ++ [quotationMark])

theorem hexValue_digitChar : ∀ d < 16, hexValue (Nat.digitChar d) = some d := by decide

theorem shortEscape_of_mem : ∀ p ∈ shortEscapes, shortEscape p.1 = some p.2 := by decide

variable {t : List Char}

theorem stringBody_escape (c : Char) {s : List Nat} (ht : StringBody t s) :
    StringBody (escape c ++ t) (c.toNat :: s) := by
  unfold escape
  cases hfind : shortEscapes.find? fun p => decide (p.2 = c) with
  | some p =>
    have hshort := shortEscape_of_mem p (List.mem_of_find?_eq_some hfind)
    have hdec := List.find?_some hfind
    rw [of_decide_eq_true hdec] at hshort
    exact .short hshort ht
  | none =>
    have hne : ∀ p ∈ shortEscapes, p.2 ≠ c := by simpa using List.find?_eq_none.mp hfind
    dsimp only
    split
    · rename_i hcontrol
      have hzero : hexValue '0' = some 0 := rfl
      have hvalue : ((0 * 16 + 0) * 16 + c.toNat / 16) * 16 + c.toNat % 16 = c.toNat := by omega
      have hbody := StringBody.unicode hzero hzero
        (hexValue_digitChar (c.toNat / 16) (by omega))
        (hexValue_digitChar (c.toNat % 16) (by omega)) ht
      rw [hvalue] at hbody
      exact hbody
    · rename_i hcontrol
      have hquote : c ≠ quotationMark :=
        (hne (quotationMark, quotationMark) List.mem_cons_self).symm
      have hslash : c ≠ backslash :=
        (hne (backslash, backslash) (List.mem_cons_of_mem _ List.mem_cons_self)).symm
      exact .plain hquote hslash (Nat.le_of_not_lt hcontrol) ht

theorem stringBody_flatMap_escape (s : List Char) :
    StringBody (s.flatMap escape) (s.map Char.toNat) := by
  induction s with
  | nil => exact .nil
  | cons c s ih => exact stringBody_escape c ih

theorem keyText_quote (s : List Char) : KeyText (quote s) (s.map Char.toNat) :=
  ⟨[], s.flatMap escape, [], nofun, nofun, stringBody_flatMap_escape s, rfl⟩

theorem intercalate_cons (p : List Char) (ps : List (List Char)) :
    [','].intercalate (p :: ps) = p ++ ps.flatMap fun q => ',' :: q := by
  induction ps generalizing p with
  | nil => simp [List.intercalate]
  | cons q ps ih =>
    have hstep : [','].intercalate (p :: q :: ps) = p ++ (',' :: [','].intercalate (q :: ps)) := by
      simp [List.intercalate]
    rw [hstep, ih, List.flatMap_cons, List.cons_append]

/-! ## 3. What a text does not stand for -/

theorem NumberText.ne_nil (h : NumberText t) : t ≠ [] := by
  obtain ⟨sign, whole, frac, exp, rfl, -, ⟨⟨hwhole, -⟩, -⟩, -⟩ := h
  intro hnil
  exact hwhole (List.append_eq_nil_iff.mp (List.append_eq_nil_iff.mp hnil).2).1

theorem Denotes.ne_nil {j : Json} (h : Denotes t j) : t ≠ [] := by
  induction h with
  | ws _ _ _ ih =>
    intro hnil
    exact ih (List.append_eq_nil_iff.mp (List.append_eq_nil_iff.mp hnil).2).1
  | num h => exact h.ne_nil
  | _ => exact List.cons_ne_nil _ _

theorem Blank.colon_not_mem (h : Blank t) : ':' ∉ t := by
  intro hmem
  rcases h _ hmem with e | e | e | e <;> exact absurd e (by decide)

theorem Denotes.colon_not_mem {j : Json} (h : Denotes t j) (hj : j = .obj []) : ':' ∉ t := by
  induction h with
  | ws hl hr _ ih =>
    rw [List.mem_append, List.mem_append]
    rintro (hmem | hmem | hmem)
    · exact hl.colon_not_mem hmem
    · exact ih hj hmem
    · exact hr.colon_not_mem hmem
  | emptyObj hl =>
    rw [List.mem_cons, List.mem_append, List.mem_singleton]
    rintro (hmem | hmem | hmem)
    · exact absurd hmem (by decide)
    · exact hl.colon_not_mem hmem
    · exact absurd hmem (by decide)
  | obj members hne =>
    injection hj with hmembers
    exact absurd (List.map_eq_nil_iff.mp hmembers) hne
  | _ => cases hj

end Peat.Lib
