import AuditFlow.Foundation.Dict
import Mathlib.Data.List.Induction

/-!
# Attempts and the cache of their results

A dictionary into which the result of every attempt is written, under the key of the attempt, holds
the **latest** result for each key (`exists_of_get?_latest`). When no attempt is made for a key once
one has succeeded (`SettlesOnce`), it is enough to look there to know how all the attempts for a key
ended (`failed_latest_iff`).
-/

namespace Foundation

variable {K E : Type}

/-- After an attempt that did not fail there is none for the same key. -/
def SettlesOnce (key : E → K) (failed : E → Prop) (attempts : List E) : Prop :=
  attempts.Pairwise fun a b => key a = key b → failed a

/-- Attempts for new keys settle once exactly if they do among themselves. -/
theorem settlesOnce_append_iff {key : E → K} {failed : E → Prop} {attempts new : List E}
    (h : ∀ a ∈ attempts, ∀ b ∈ new, key a ≠ key b) :
    SettlesOnce key failed (attempts ++ new) ↔
      SettlesOnce key failed attempts ∧ SettlesOnce key failed new := by
  rw [SettlesOnce, List.pairwise_append, ← and_assoc]
  refine and_iff_left fun a ha b hb hkey => ?_
  exact absurd hkey (h a ha b hb)

variable [DecidableEq K]

/-- The latest attempt for each key. -/
def Dict.latest (key : E → K) (attempts : List E) : Dict K E := Dict.empty.setAll key id attempts

namespace Dict

variable {key : E → K} {failed : E → Prop} {attempts new : List E} {k : K} {a : E}

/-- More attempts are written over the earlier ones. -/
theorem latest_append (key : E → K) (attempts new : List E) :
    latest key (attempts ++ new) = (latest key attempts).setAll key id new :=
  List.foldl_append

theorem get?_latest_eq_none_iff : (latest key attempts).get? k = none ↔
    ∀ a ∈ attempts, key a ≠ k := by
  rw [get?_eq_none_iff, latest, mem_keys_setAll]
  simp [keys, empty]

/-- **The latest attempt**: it has the key, and no later one has. -/
theorem exists_of_get?_latest (h : (latest key attempts).get? k = some a) :
    ∃ before after, attempts = before ++ a :: after ∧ key a = k ∧ ∀ b ∈ after, key b ≠ k := by
  induction attempts using List.reverseRecOn with
  | nil => cases h
  | append_singleton attempts b ih =>
    have hset : (latest key (attempts ++ [b])) = (latest key attempts).set (key b) b :=
      latest_append key attempts [b]
    rw [hset, get?_set] at h
    split_ifs at h with hk
    · obtain rfl := Option.some.inj h
      refine ⟨attempts, [], rfl, hk.symm, ?_⟩
      simp
    · obtain ⟨before, after, rfl, hkey, hlast⟩ := ih h
      refine ⟨before, after ++ [b], by simp, hkey, ?_⟩
      simp only [List.mem_append, List.mem_singleton]
      rintro c (hc | rfl)
      · exact hlast c hc
      · exact fun hkeyc => hk hkeyc.symm

/-- **The latest result tells whether all attempts failed**, where keys are settled once. -/
theorem failed_latest_iff (hsettles : SettlesOnce key failed attempts)
    (h : (latest key attempts).get? k = some a) :
    failed a ↔ ∀ b ∈ attempts, key b = k → failed b := by
  obtain ⟨before, after, rfl, rfl, hlast⟩ := exists_of_get?_latest h
  constructor
  · intro hfailed b hb hkey
    rcases List.mem_append.mp hb with hbefore | hrest
    · have hpair := (List.pairwise_append.mp hsettles).2.2
      exact hpair b hbefore a List.mem_cons_self hkey
    · rcases List.mem_cons.mp hrest with rfl | hafter
      · exact hfailed
      · exact absurd hkey (hlast b hafter)
  · intro hall
    exact hall a (List.mem_append_right before List.mem_cons_self) rfl

end Dict

end Foundation
