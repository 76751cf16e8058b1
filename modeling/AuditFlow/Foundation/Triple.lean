import AuditFlow.Foundation.Exc

/-!
# Triples for computations that may raise

`Exc.Triple R P x Q E`: from every state of `P`, `x` moves the state along `R`; a value that it
returns satisfies `Q` in the state that it leaves, and if it raises, that state satisfies `E`. The
relation `R` is a preorder of **growth**: what survives growth can be carried past a computation
(`Triple.frame`), so that facts about earlier values need not be mentioned in the triples of later
ones.
-/

namespace Foundation

namespace Exc

variable {ε σ α β : Type} {R : σ → σ → Prop} {P P' F : σ → Prop} {E E' : σ → Prop}

/-- What `x` does from the states of `P`. -/
def Triple (R : σ → σ → Prop) (P : σ → Prop) (x : Exc ε σ α) (Q : α → σ → Prop) (E : σ → Prop) :
    Prop :=
  ∀ s, P s → R s (x s).2 ∧ (∀ a, (x s).1 = .ok a → Q a (x s).2) ∧
    ∀ e, (x s).1 = .error e → E (x s).2

namespace Triple

variable {x : Exc ε σ α} {Q Q' : α → σ → Prop}

/-- A stronger precondition and weaker postconditions. -/
theorem mono (h : Triple R P x Q E) (hP : ∀ s, P' s → P s) (hQ : ∀ a s, Q a s → Q' a s)
    (hE : ∀ s, E s → E' s) : Triple R P' x Q' E' := by
  intro s hs
  obtain ⟨hgrows, hreturns, hraises⟩ := h s (hP s hs)
  exact ⟨hgrows, fun a ha => hQ a _ (hreturns a ha), fun e he => hE _ (hraises e he)⟩

/-- A stronger precondition. -/
theorem pre (h : Triple R P x Q E) (hP : ∀ s, P' s → P s) : Triple R P' x Q E :=
  h.mono hP (fun _ _ hQ => hQ) fun _ hE => hE

/-- **What survives growth** holds afterwards if it holds before. -/
theorem frame (h : Triple R P x Q E) (hF : ∀ s s', R s s' → F s → F s') :
    Triple R (fun s => P s ∧ F s) x (fun a s => Q a s ∧ F s) E := by
  rintro s ⟨hs, hFs⟩
  obtain ⟨hgrows, hreturns, hraises⟩ := h s hs
  exact ⟨hgrows, fun a ha => ⟨hreturns a ha, hF _ _ hgrows hFs⟩, hraises⟩

section

variable [IsPreorder σ R]

protected theorem pure (a : α) (h : ∀ s, P s → Q a s) :
    Triple R P (pure a : Exc ε σ α) Q E := by
  intro s hs
  refine ⟨Std.Refl.refl s, fun b hb => ?_, fun e he => nomatch he⟩
  obtain rfl := Except.ok.inj hb
  exact h s hs

theorem raise (e : ε) (h : ∀ s, P s → E s) : Triple R P (raise e : Exc ε σ α) Q E :=
  fun s hs => ⟨Std.Refl.refl s, (fun _ ha => nomatch ha), fun _ _ => h s hs⟩

/-- The second part starts where the first one has returned. -/
theorem bind {f : α → Exc ε σ β} {S : β → σ → Prop} (h : Triple R P x Q E)
    (hf : ∀ a, Triple R (Q a) (f a) S E) : Triple R P (x >>= f) S E := by
  intro s hs
  obtain ⟨hgrows, hreturns, hraises⟩ := h s hs
  rw [bind_apply]
  rcases hx : x s with ⟨e | a, s'⟩
  · rw [hx] at hgrows hraises
    exact ⟨hgrows, (fun _ hb => nomatch hb), fun _ _ => hraises e rfl⟩
  · rw [hx] at hgrows hreturns
    obtain ⟨hgrows', hreturns', hraises'⟩ := hf a s' (hreturns a rfl)
    exact ⟨IsTrans.trans _ _ _ hgrows hgrows', hreturns', hraises'⟩

/-- The handler starts where the body has raised. -/
theorem handle {h : ε → Exc ε σ α} (hx : Triple R P x Q E')
    (hh : ∀ e, Triple R E' (h e) Q E) : Triple R P (handle x h) Q E := by
  intro s hs
  obtain ⟨hgrows, hreturns, hraises⟩ := hx s hs
  rw [Exc.handle]
  rcases hrun : x s with ⟨e | a, s'⟩
  · rw [hrun] at hgrows hraises
    obtain ⟨hgrows', hreturns', hraises'⟩ := hh e s' (hraises e rfl)
    exact ⟨IsTrans.trans _ _ _ hgrows hgrows', hreturns', hraises'⟩
  · rw [hrun] at hgrows hreturns
    refine ⟨hgrows, hreturns, fun e he => ?_⟩
    cases he

end

end Triple

end Exc

end Foundation
