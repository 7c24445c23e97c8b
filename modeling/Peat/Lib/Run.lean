/-
  RUNS of a step function, and what holds along them.

  A component is a state and a total step function `step : σ → α → σ`; an
  operation carries every input the step reads (the wall clock included).
-/
import Mathlib.Logic.Basic

namespace Peat.Lib

variable {σ α : Type*}

def run (step : σ → α → σ) (s : σ) (ops : List α) : σ := ops.foldl step s

/-- Every operation of the run meets the condition in the state it finds. -/
def RunMeets (step : σ → α → σ) (C : σ → α → Prop) : σ → List α → Prop
  | _, [] => True
  | s, a :: ops => C s a ∧ RunMeets step C (step s a) ops

instance RunMeets.decidable (step : σ → α → σ) (C : σ → α → Prop) [∀ s a, Decidable (C s a)] :
    ∀ (s : σ) (ops : List α), Decidable (RunMeets step C s ops)
  | _, [] => isTrue trivial
  | s, a :: ops =>
    have := RunMeets.decidable step C (step s a) ops
    inferInstanceAs (Decidable (C s a ∧ RunMeets step C (step s a) ops))

section Laws

variable {step : σ → α → σ} {C C' : σ → α → Prop} {s : σ} {ops : List α}

@[simp] theorem run_nil : run step s [] = s := rfl

@[simp] theorem run_cons (a : α) : run step s (a :: ops) = run step (step s a) ops := rfl

theorem run_append (l r : List α) : run step s (l ++ r) = run step (run step s l) r :=
  List.foldl_append

theorem run_concat (l : List α) (a : α) : run step s (l ++ [a]) = step (run step s l) a := by
  rw [run_append]
  rfl

theorem runMeets_append (l r : List α) :
    RunMeets step C s (l ++ r) ↔ RunMeets step C s l ∧ RunMeets step C (run step s l) r := by
  induction l generalizing s with
  | nil => simp [RunMeets]
  | cons a l ih => simp only [List.cons_append, RunMeets, run_cons, ih, and_assoc]

theorem runMeets_iff :
    RunMeets step C s ops ↔ ∀ pre a post, ops = pre ++ a :: post → C (run step s pre) a := by
  constructor
  · rintro h pre a post rfl
    exact ((runMeets_append pre (a :: post)).mp h).2.1
  · intro h
    induction ops generalizing s with
    | nil => trivial
    | cons a ops ih =>
      refine ⟨h [] a ops rfl, ih fun pre b post e => ?_⟩
      exact h (a :: pre) b post (by rw [e]; rfl)

theorem runMeets_initial {pre : List α} (h : RunMeets step C s ops) (hp : pre <+: ops) :
    RunMeets step C s pre := by
  obtain ⟨post, rfl⟩ := hp
  exact ((runMeets_append pre post).mp h).1

variable (Inv : σ → Prop)

theorem run_invariant (hstep : ∀ s a, Inv s → Inv (step s a)) (h : Inv s) (ops : List α) :
    Inv (run step s ops) := by
  induction ops generalizing s with
  | nil => exact h
  | cons a ops ih => exact ih (hstep s a h)

theorem runMeets_invariant (hstep : ∀ s a, C s a → Inv s → Inv (step s a))
    (hm : RunMeets step C s ops) (h : Inv s) : Inv (run step s ops) := by
  induction ops generalizing s with
  | nil => exact h
  | cons a ops ih => exact ih hm.2 (hstep s a hm.1 h)

theorem run_filterMap {τ β : Type*} {step' : τ → β → τ} (f : σ → τ) (g : α → Option β)
    (h : ∀ s a, f (step s a) = (g a).elim (f s) (step' (f s))) (ops : List α) :
    f (run step s ops) = run step' (f s) (ops.filterMap g) := by
  induction ops generalizing s with
  | nil => rfl
  | cons a ops ih =>
    rw [run_cons, ih, h]
    cases hg : g a with
    | none =>
      rw [List.filterMap_cons_none hg]
      rfl
    | some b =>
      rw [List.filterMap_cons_some hg]
      rfl

theorem runMeets_map {τ : Type*} {step' : τ → α → τ} {D : τ → α → Prop} (f : σ → τ)
    (h : ∀ s a, f (step s a) = step' (f s) a) :
    RunMeets step (fun s a => D (f s) a) s ops ↔ RunMeets step' D (f s) ops := by
  induction ops generalizing s with
  | nil => exact Iff.rfl
  | cons a ops ih =>
    simp only [RunMeets]
    rw [ih, h]

theorem runMeets_congr (h : ∀ s a, C s a ↔ C' s a) :
    RunMeets step C s ops ↔ RunMeets step C' s ops := by
  simp only [runMeets_iff, h]

theorem runMeets_and :
    RunMeets step (fun s a => C s a ∧ C' s a) s ops ↔
      RunMeets step C s ops ∧ RunMeets step C' s ops := by
  simp only [runMeets_iff, forall_and]

theorem runMeets_weaken (hstep : ∀ s a, C s a → Inv s → C' s a ∧ Inv (step s a)) (h : Inv s)
    (hm : RunMeets step C s ops) : RunMeets step C' s ops := by
  induction ops generalizing s with
  | nil => trivial
  | cons a ops ih =>
    obtain ⟨hc, hi⟩ := hstep s a hm.1 h
    exact ⟨hc, ih hi hm.2⟩

theorem runMeets_iff_of_invariant (hiff : ∀ s a, Inv s → (C s a ↔ C' s a))
    (hstep : ∀ s a, C s a → Inv s → Inv (step s a)) (h : Inv s) :
    RunMeets step C s ops ↔ RunMeets step C' s ops :=
  ⟨runMeets_weaken Inv (fun s a hc hi => ⟨(hiff s a hi).mp hc, hstep s a hc hi⟩) h,
    runMeets_weaken Inv
      (fun s a hc hi => ⟨(hiff s a hi).mpr hc, hstep s a ((hiff s a hi).mpr hc) hi⟩) h⟩

theorem runMeets_iff_of_meets {D : σ → α → Prop} (hiff : ∀ s a, Inv s → D s a → (C s a ↔ C' s a))
    (hstep : ∀ s a, D s a → Inv s → Inv (step s a)) (h : Inv s) (hd : RunMeets step D s ops) :
    RunMeets step C s ops ↔ RunMeets step C' s ops := by
  induction ops generalizing s with
  | nil => exact Iff.rfl
  | cons a ops ih => exact and_congr (hiff s a h hd.1) (ih (hstep s a hd.1 h) hd.2)

theorem run_within_iff_of_stronger (P Q : σ → Prop) (hQP : ∀ s, Q s → P s)
    (hgood : ∀ s a, Q s → C s a → Q (step s a)) (hbad : ∀ s a, Q s → P (step s a) → C s a)
    (h : Q s) : (∀ pre, pre <+: ops → P (run step s pre)) ↔ RunMeets step C s ops := by
  constructor
  · intro hall
    induction ops generalizing s with
    | nil => trivial
    | cons a ops ih =>
      have hc : C s a := hbad s a h (hall [a] ⟨ops, rfl⟩)
      refine ⟨hc, ih (hgood s a h hc) fun pre hpre => ?_⟩
      exact hall (a :: pre) (List.cons_prefix_cons.mpr ⟨rfl, hpre⟩)
  · intro hm pre hpre
    exact hQP _ (runMeets_invariant Q (fun s a hc hq => hgood s a hq hc) (runMeets_initial hm hpre) h)

theorem run_within_iff_of_meets {D : σ → α → Prop} (P : σ → Prop)
    (hinv : ∀ s a, D s a → Inv s → Inv (step s a))
    (hstep : ∀ s a, D s a → Inv s → P s → (P (step s a) ↔ C s a)) (hd : RunMeets step D s ops)
    (hi : Inv s) (h : P s) : (∀ pre, pre <+: ops → P (run step s pre)) ↔ RunMeets step C s ops := by
  induction ops generalizing s with
  | nil =>
    refine iff_of_true (fun pre hpre => ?_) trivial
    rw [List.prefix_nil.mp hpre]
    exact h
  | cons a ops ih =>
    have hnext := hinv s a hd.1 hi
    constructor
    · intro hall
      have h1 : P (step s a) := hall [a] ⟨ops, rfl⟩
      refine ⟨(hstep s a hd.1 hi h).mp h1, (ih hd.2 hnext h1).mp fun pre hpre => ?_⟩
      exact hall (a :: pre) (List.cons_prefix_cons.mpr ⟨rfl, hpre⟩)
    · rintro ⟨hc, hm⟩ pre hpre
      cases pre with
      | nil => exact h
      | cons b pre =>
        obtain ⟨rfl, hpre'⟩ := List.cons_prefix_cons.mp hpre
        exact (ih hd.2 hnext ((hstep s b hd.1 hi h).mpr hc)).mpr hm pre hpre'

theorem runMeets_of_forall_mem {P : α → Prop} (h : ∀ a ∈ ops, P a) :
    RunMeets step (fun _ a => P a) s ops :=
  runMeets_iff.mpr fun pre a post e => h a (by rw [e]; exact List.mem_append_cons_self)

theorem runMeets_true : RunMeets step (fun _ _ => True) s ops :=
  runMeets_iff.mpr fun _ _ _ _ => trivial

theorem run_within_iff_of_invariant (P : σ → Prop) (hinv : ∀ s a, Inv s → Inv (step s a))
    (hstep : ∀ s a, Inv s → P s → (P (step s a) ↔ C s a)) (hi : Inv s) (h : P s) :
    (∀ pre, pre <+: ops → P (run step s pre)) ↔ RunMeets step C s ops :=
  run_within_iff_of_meets Inv P (fun s a _ => hinv s a) (fun s a _ => hstep s a) runMeets_true hi h

theorem run_within_iff (P : σ → Prop) (hstep : ∀ s a, P s → (P (step s a) ↔ C s a)) (h : P s) :
    (∀ pre, pre <+: ops → P (run step s pre)) ↔ RunMeets step C s ops :=
  run_within_iff_of_invariant (fun _ => True) P (fun _ _ _ => trivial) (fun s a _ => hstep s a) trivial h

theorem run_iff_runMeets (P : σ → Prop) (hstep : ∀ s a, P (step s a) ↔ P s ∧ C s a) :
    P (run step s ops) ↔ P s ∧ RunMeets step C s ops := by
  induction ops generalizing s with
  | nil => exact (and_iff_left trivial).symm
  | cons a ops ih => rw [run_cons, ih, hstep, and_assoc]; rfl

theorem run_bad (Good Bad : σ → Prop) (hgood : ∀ s a, Good s → C s a → Good (step s a))
    (hbad : ∀ s a, Good s → ¬ C s a → Bad (step s a)) (hstay : ∀ s a, Bad s → Bad (step s a))
    (h : Good s) (hm : ¬ RunMeets step C s ops) : Bad (run step s ops) := by
  induction ops generalizing s with
  | nil => exact absurd trivial hm
  | cons a ops ih =>
    by_cases hc : C s a
    · exact ih (hgood s a h hc) fun hr => hm ⟨hc, hr⟩
    · exact run_invariant Bad hstay (hbad s a h hc) ops

theorem foldlM_ok {ε : Type*} {f : σ → α → Except ε σ} (Inv : List α → σ → Prop)
    (hstep : ∀ pre a s, pre ++ [a] <+: ops → Inv pre s → ∃ s', f s a = .ok s' ∧ Inv (pre ++ [a]) s')
    (h : Inv [] s) : ∃ s', ops.foldlM f s = .ok s' ∧ Inv ops s' := by
  have key : ∀ post pre s, pre ++ post = ops → Inv pre s →
      ∃ s', post.foldlM f s = .ok s' ∧ Inv ops s' := by
    intro post
    induction post with
    | nil =>
      intro pre s e hp
      rw [List.append_nil] at e
      exact ⟨s, rfl, e ▸ hp⟩
    | cons a post ih =>
      intro pre s e hp
      rw [List.append_cons] at e
      obtain ⟨s₁, hs₁, hinv⟩ := hstep pre a s ⟨post, e⟩ hp
      obtain ⟨s', hs', hfin⟩ := ih (pre ++ [a]) s₁ e hinv
      refine ⟨s', ?_, hfin⟩
      rw [List.foldlM_cons, hs₁]
      exact hs'
  exact key ops [] s rfl h

theorem foldlM_eq_some_iff {f : σ → α → Option σ} {P : α → Prop} {s' : σ}
    (h : ∀ s a s', f s a = some s' ↔ P a ∧ step s a = s') :
    ops.foldlM f s = some s' ↔ (∀ a ∈ ops, P a) ∧ run step s ops = s' := by
  induction ops generalizing s with
  | nil => simp
  | cons a ops ih =>
    rw [List.foldlM_cons, Option.bind_eq_bind, Option.bind_eq_some_iff, List.forall_mem_cons, run_cons]
    simp only [h, ih]
    constructor
    · intro ⟨b, ⟨ha, hb⟩, hops, hrun⟩
      exact ⟨⟨ha, hops⟩, hb ▸ hrun⟩
    · intro ⟨⟨ha, hops⟩, hrun⟩
      exact ⟨step s a, ⟨ha, rfl⟩, hops, hrun⟩

end Laws

section Since

/-- **An operation has started something, and no operation since has ended it.** -/
def Since (starts ends : α → Prop) (ops : List α) : Prop :=
  ∃ pre a post, ops = pre ++ a :: post ∧ starts a ∧ ∀ b ∈ post, ¬ ends b

variable {starts ends : α → Prop} {ops : List α}

theorem not_since_nil : ¬ Since starts ends [] := by
  intro ⟨pre, a, post, h, _⟩
  exact List.append_ne_nil_of_right_ne_nil pre (List.cons_ne_nil a post) h.symm

theorem since_concat (last : α) :
    Since starts ends (ops ++ [last]) ↔ starts last ∨ Since starts ends ops ∧ ¬ ends last := by
  constructor
  · intro ⟨pre, a, post, hops, hstart, hpost⟩
    rcases List.eq_nil_or_concat post with rfl | ⟨post, b, rfl⟩
    · obtain ⟨_, hlast⟩ := List.append_inj' hops rfl
      cases hlast
      exact .inl hstart
    · rw [List.concat_eq_append, ← List.cons_append, ← List.append_assoc] at hops
      obtain ⟨hsplit, hlast⟩ := List.append_inj' hops rfl
      cases hlast
      rw [List.concat_eq_append] at hpost
      exact .inr ⟨⟨pre, a, post, hsplit, hstart, fun b hb => hpost b (List.mem_append_left _ hb)⟩,
        hpost last (List.mem_append_right _ List.mem_cons_self)⟩
  · intro h
    rcases h with hstart | ⟨⟨pre, a, post, hops, hstart, hpost⟩, hlast⟩
    · exact ⟨ops, last, [], rfl, hstart, nofun⟩
    · refine ⟨pre, a, post ++ [last], by rw [hops, List.append_assoc, List.cons_append], hstart, ?_⟩
      intro b hb
      rcases List.mem_append.mp hb with hb | hb
      · exact hpost b hb
      · rw [List.mem_singleton.mp hb]
        exact hlast

theorem Since.exists_mem (h : Since starts ends ops) : ∃ a ∈ ops, starts a := by
  obtain ⟨pre, a, post, hops, hstart, _⟩ := h
  rw [hops]
  exact ⟨a, List.mem_append_right _ List.mem_cons_self, hstart⟩

end Since

end Peat.Lib
