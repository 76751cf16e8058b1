import Mathlib.Data.List.Induction
import Mathlib.Tactic.Common

/-!
# Guarded runs of a transition function

A system is a partial transition function `step : σ → ℓ → Option σ` over labels: the label says
which party does what, `none` that the step is not enabled. `ReachWhere step ok s₀ s` says that `s`
is reached from `s₀` by enabled steps each of which **satisfies `ok` in the state it starts from**;
`Reach` is the unguarded case.

`ReachWhere.invariant` is the one induction over runs: what holds initially and survives every
guarded step holds of every reached state. `execWhere` and `exec` run a list of labels, for concrete
runs. `iff_lastStep` is the rule for what is set by certain steps and left alone by the others: it
holds exactly if **the last of these steps** has set it.
-/

namespace Foundation

variable {σ ℓ : Type}

/-- States reached from `s₀` by enabled steps that satisfy `ok` where they start. -/
inductive ReachWhere (step : σ → ℓ → Option σ) (ok : σ → ℓ → Prop) (s₀ : σ) : σ → Prop
  | start : ReachWhere step ok s₀ s₀
  | next {s s' : σ} {l : ℓ} :
      ReachWhere step ok s₀ s → ok s l → step s l = some s' → ReachWhere step ok s₀ s'

/-- States reached by enabled steps. -/
def Reach (step : σ → ℓ → Option σ) (s₀ : σ) : σ → Prop := ReachWhere step (fun _ _ => True) s₀

variable {step : σ → ℓ → Option σ} {ok : σ → ℓ → Prop} {s₀ s s' : σ}

/-- **Invariant rule.** A property of the initial state that every guarded step preserves holds
of every reached state. -/
theorem ReachWhere.invariant {P : σ → Prop} (h : ReachWhere step ok s₀ s) (h₀ : P s₀)
    (hstep : ∀ s l s', P s → ok s l → step s l = some s' → P s') : P s := by
  induction h with
  | start => exact h₀
  | next _ hok hs ih => exact hstep _ _ _ ih hok hs

/-- A guarded run is a run. -/
theorem ReachWhere.reach (h : ReachWhere step ok s₀ s) : Reach step s₀ s := by
  induction h with
  | start => exact .start
  | next _ _ hs ih => exact .next ih trivial hs

/-- Weakening the guard. -/
theorem ReachWhere.mono {ok' : σ → ℓ → Prop} (himp : ∀ s l, ok s l → ok' s l)
    (h : ReachWhere step ok s₀ s) : ReachWhere step ok' s₀ s := by
  induction h with
  | start => exact .start
  | next _ hok hs ih => exact .next ih (himp _ _ hok) hs

/-- Run a list of labels; `none` as soon as one of them is not enabled or violates the guard. -/
def execWhere (step : σ → ℓ → Option σ) (ok : σ → ℓ → Prop) [∀ s l, Decidable (ok s l)] :
    σ → List ℓ → Option σ
  | s, [] => some s
  | s, l :: ls => if ok s l then (step s l).bind fun s' => execWhere step ok s' ls else none

/-- Run a list of labels. -/
def exec (step : σ → ℓ → Option σ) : σ → List ℓ → Option σ :=
  execWhere step fun _ _ => True

theorem ReachWhere.exec [∀ s l, Decidable (ok s l)] (h : ReachWhere step ok s₀ s) {ls : List ℓ}
    (hex : execWhere step ok s ls = some s') : ReachWhere step ok s₀ s' := by
  induction ls generalizing s with
  | nil =>
    obtain rfl : s = s' := Option.some.inj hex
    exact h
  | cons l ls ih =>
    rw [execWhere] at hex
    split_ifs at hex with hok
    obtain ⟨t, ht, hex'⟩ := Option.bind_eq_some_iff.mp hex
    exact ih (h.next hok ht) hex'

/-- In a guarded run, every step satisfies the guard. -/
theorem guard_of_execWhere [∀ s l, Decidable (ok s l)] {labels before after : List ℓ} {l : ℓ}
    (hrun : (execWhere step ok s₀ labels).isSome = true) (hsplit : labels = before ++ l :: after)
    (hbefore : execWhere step (fun _ _ => True) s₀ before = some s) : ok s l := by
  induction before generalizing s₀ labels with
  | nil =>
    obtain rfl := Option.some.inj hbefore
    rw [hsplit, List.nil_append, execWhere] at hrun
    by_contra hnot
    rw [if_neg hnot] at hrun
    cases hrun
  | cons l' before ih =>
    rw [hsplit, List.cons_append, execWhere] at hrun
    rw [execWhere, if_pos trivial] at hbefore
    obtain ⟨s₁, hs₁, hbefore'⟩ := Option.bind_eq_some_iff.mp hbefore
    split_ifs at hrun
    · rw [hs₁, Option.bind_some] at hrun
      exact ih hrun rfl hbefore'
    · cases hrun

theorem exec_nil (s : σ) : Foundation.exec step s [] = some s := rfl

theorem exec_cons (s : σ) (l : ℓ) (ls : List ℓ) : Foundation.exec step s (l :: ls) =
    (step s l).bind fun s' => Foundation.exec step s' ls := by
  rw [Foundation.exec, execWhere, if_pos trivial]

/-- One run after the other. -/
theorem exec_append (ls ls' : List ℓ) :
    Foundation.exec step s₀ (ls ++ ls') =
      (Foundation.exec step s₀ ls).bind fun s => Foundation.exec step s ls' := by
  induction ls generalizing s₀ with
  | nil =>
    rw [List.nil_append, exec_nil, Option.bind_some]
  | cons l ls ih =>
    rw [List.cons_append, exec_cons, exec_cons, Option.bind_assoc]
    exact Option.bind_congr fun s' _ => ih

/-- A run of one more label. -/
theorem exec_concat (ls : List ℓ) (l : ℓ) :
    Foundation.exec step s₀ (ls ++ [l]) =
      (Foundation.exec step s₀ ls).bind fun s => step s l := by
  rw [exec_append]
  refine Option.bind_congr fun s _ => ?_
  rw [exec_cons]
  exact Option.bind_fun_some _

/-- A run of labels that all satisfy a guard. -/
theorem reachWhere_of_exec {P : ℓ → Prop} {ls : List ℓ} (hls : ∀ l ∈ ls, P l)
    (hex : Foundation.exec step s₀ ls = some s) : ReachWhere step (fun _ l => P l) s₀ s := by
  induction ls using List.reverseRecOn generalizing s with
  | nil =>
    obtain rfl := Option.some.inj hex
    exact .start
  | append_singleton ls l ih =>
    rw [exec_concat] at hex
    obtain ⟨s', hs', hstep⟩ := Option.bind_eq_some_iff.mp hex
    have hbefore := ih (fun l' hl' => hls l' (List.mem_append_left _ hl')) hs'
    exact hbefore.next (hls l (List.mem_append_right _ List.mem_cons_self)) hstep

/-- **Runs of a list of labels.** If a property starts to hold and each step of the run decides
whether it goes on to hold, then it holds all along the run if and only if every step decides for
it. -/
theorem forall_exec_iff {P : σ → Prop} {keeps : σ → ℓ → Prop} {labels : List ℓ} (h₀ : P s₀)
    (hstep : ∀ before l after s s', labels = before ++ l :: after →
      Foundation.exec step s₀ before = some s → step s l = some s' → P s → (P s' ↔ keeps s l)) :
    (∀ before after s, labels = before ++ after →
      Foundation.exec step s₀ before = some s → P s) ↔
    ∀ before l after s s', labels = before ++ l :: after →
      Foundation.exec step s₀ before = some s → step s l = some s' → keeps s l := by
  constructor
  · intro hall before l after s s' hsplit hrun hs
    have hrun' : Foundation.exec step s₀ (before ++ [l]) = some s' := by
      rw [exec_concat, hrun]
      exact hs
    have hsplit' : labels = (before ++ [l]) ++ after := by
      rw [hsplit, List.append_assoc]
      rfl
    exact (hstep before l after s s' hsplit hrun hs (hall before _ s hsplit hrun)).mp
      (hall (before ++ [l]) after s' hsplit' hrun')
  · intro hkeeps before
    induction before using List.reverseRecOn with
    | nil =>
      intro after s _ hrun
      obtain rfl := Option.some.inj hrun
      exact h₀
    | append_singleton before l ih =>
      intro after s' hsplit hrun
      rw [exec_concat] at hrun
      obtain ⟨s, hs, hs'⟩ := Option.bind_eq_some_iff.mp hrun
      have hsplit' : labels = before ++ l :: after := by
        rw [hsplit, List.append_assoc]
        rfl
      exact (hstep before l after s s' hsplit' hs hs' (ih _ s hsplit' hs)).mpr
        (hkeeps before l after s s' hsplit' hs hs')

/-! ### The last step of a kind -/

/-- In the run of `labels`, the last of the steps `P` starts from a state with `Q`. -/
def LastStep (step : σ → ℓ → Option σ) (P : σ → ℓ → Prop) (Q : σ → Prop) (s₀ : σ)
    (labels : List ℓ) : Prop :=
  ∃ before l after s, labels = before ++ l :: after ∧
    Foundation.exec step s₀ before = some s ∧ P s l ∧ Q s ∧
    ∀ between l' rest s', after = between ++ l' :: rest →
      Foundation.exec step s₀ (before ++ l :: between) = some s' → ¬P s' l'

/-- One more step is the last of the steps `P`, or is none of them. -/
theorem lastStep_concat_iff {P : σ → ℓ → Prop} {Q : σ → Prop} {labels : List ℓ} {l : ℓ}
    (hrun : Foundation.exec step s₀ labels = some s) :
    LastStep step P Q s₀ (labels ++ [l]) ↔
      P s l ∧ Q s ∨ ¬P s l ∧ LastStep step P Q s₀ labels := by
  constructor
  · rintro ⟨before, l₁, after, s₁, hsplit, hbefore, hP, hQ, hlast⟩
    rcases List.eq_nil_or_concat after with rfl | ⟨after, l₂, rfl⟩
    · obtain ⟨rfl, hl⟩ := List.append_inj' hsplit rfl
      obtain rfl := (List.cons.inj hl).1
      obtain rfl := Option.some.inj (hbefore.symm.trans hrun)
      exact Or.inl ⟨hP, hQ⟩
    · rw [List.concat_eq_append, ← List.cons_append, ← List.append_assoc] at hsplit
      obtain ⟨rfl, hl⟩ := List.append_inj' hsplit rfl
      obtain rfl := (List.cons.inj hl).1
      refine Or.inr ⟨?_, before, l₁, after, s₁, rfl, hbefore, hP, hQ, ?_⟩
      · exact hlast after l [] s (List.concat_eq_append ..) hrun
      · intro between l' rest s' hafter hrun'
        refine hlast between l' (rest ++ [l]) s' ?_ hrun'
        rw [hafter, List.concat_eq_append, List.append_assoc, List.cons_append]
  · rintro (⟨hP, hQ⟩ | ⟨hnot, before, l₁, after, s₁, rfl, hbefore, hP, hQ, hlast⟩)
    · refine ⟨labels, l, [], s, rfl, hrun, hP, hQ, fun between l' rest s' hnil => ?_⟩
      exact absurd hnil.symm (List.append_ne_nil_of_right_ne_nil between (List.cons_ne_nil l' rest))
    · refine ⟨before, l₁, after ++ [l], s₁, ?_, hbefore, hP, hQ, ?_⟩
      · rw [List.append_assoc, List.cons_append]
      · intro between l' rest s' hafter hrun'
        rcases List.eq_nil_or_concat rest with rfl | ⟨rest, l₂, rfl⟩
        · obtain ⟨rfl, hl⟩ := List.append_inj' hafter rfl
          obtain rfl := (List.cons.inj hl).1
          obtain rfl := Option.some.inj (hrun'.symm.trans hrun)
          exact hnot
        · rw [List.concat_eq_append, ← List.cons_append, ← List.append_assoc] at hafter
          exact hlast between l' rest s' (List.append_inj' hafter rfl).1 hrun'

/-- **What only certain steps set.** If a property does not hold at the start, each of the steps `P`
decides by the state before it whether the property holds, and no other step changes it, then it
holds after a run if and only if the last of these steps has decided for it. -/
theorem iff_lastStep {I : σ → Prop} {P : σ → ℓ → Prop} {Q : σ → Prop} {labels : List ℓ}
    (h₀ : ¬I s₀) (hsets : ∀ s l s', P s l → step s l = some s' → (I s' ↔ Q s))
    (hkeeps : ∀ s l s', ¬P s l → step s l = some s' → (I s' ↔ I s))
    (hrun : Foundation.exec step s₀ labels = some s) : I s ↔ LastStep step P Q s₀ labels := by
  induction labels using List.reverseRecOn generalizing s with
  | nil =>
    obtain rfl := Option.some.inj hrun
    refine iff_of_false h₀ ?_
    rintro ⟨before, l, after, _, hnil, -⟩
    exact List.append_ne_nil_of_right_ne_nil before (List.cons_ne_nil l after) hnil.symm
  | append_singleton labels l ih =>
    rw [exec_concat] at hrun
    obtain ⟨s₁, hs₁, hstep⟩ := Option.bind_eq_some_iff.mp hrun
    rw [lastStep_concat_iff hs₁]
    by_cases hP : P s₁ l
    · simp only [hP, true_and, not_true, false_and, or_false]
      exact hsets s₁ l s hP hstep
    · simp only [hP, false_and, not_false_iff, true_and, false_or]
      exact (hkeeps s₁ l s hP hstep).trans (ih hs₁)

/-- A list of labels that runs to `s'` reaches `s'`. -/
theorem reach_of_exec {ls : List ℓ} (hex : Foundation.exec step s₀ ls = some s') :
    Reach step s₀ s' := ReachWhere.start.exec hex

end Foundation
