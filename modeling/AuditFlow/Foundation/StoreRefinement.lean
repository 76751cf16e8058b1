import AuditFlow.Foundation.KeyStore

/-!
# Two representations of a key store

The same clients on two stores: one keeps values, the other one what an encoding makes of them. A
program over codes **refines** a program over values (`Program.Refines`) if both send commands to
the same keys, and each command does to the code what its counterpart does to the value, with an
answer that corresponds. A command is only compared on entries that fit its key (`Fits`), and it has
to leave one there.

Clients are compared once, each by its own text: then **whole interleaved runs correspond**
(`Pool.Refines.run`), with the same results, and with the codes of the values under the keys.
-/

namespace Foundation

/-- Answers correspond, or they are the same error. -/
inductive Corresponds {ε β β' : Type} (answers : β → β' → Prop) :
    Except ε β → Except ε β' → Prop
  | ok {b : β} {b' : β'} (h : answers b b') : Corresponds answers (.ok b) (.ok b')
  | error (e : ε) : Corresponds answers (.error e) (.error e)

section

variable {κ V V' ε β β' : Type}

/-- What is under a key fits it. -/
def FitsAt (Fits : κ → V → Prop) (key : κ) (v : Option V) : Prop := ∀ x, v = some x → Fits key x

theorem fitsAt_none (Fits : κ → V → Prop) (key : κ) : FitsAt Fits key none := fun _ h => nomatch h

/-- A command on codes does what a command on values does. -/
structure EffectRefines (Fits : κ → V → Prop) (enc : V → V') (key : κ) (answers : β → β' → Prop)
    (effect : ℕ → Option V → Except ε β × Option V)
    (effect' : ℕ → Option V' → Except ε β' × Option V') : Prop where
  answer : ∀ now v, FitsAt Fits key v →
    Corresponds answers (effect now v).1 (effect' now (v.map enc)).1
  store : ∀ now v, FitsAt Fits key v → (effect' now (v.map enc)).2 = (effect now v).2.map enc
  fits : ∀ now v, FitsAt Fits key v → FitsAt Fits key (effect now v).2

/-- Whatever becomes of the command. -/
theorem EffectRefines.apply {Fits : κ → V → Prop} {enc : V → V'} {key : κ}
    {answers : β → β' → Prop} {effect : ℕ → Option V → Except ε β × Option V}
    {effect' : ℕ → Option V' → Except ε β' × Option V'}
    (h : EffectRefines Fits enc key answers effect effect') (delivery : Delivery ε) :
    EffectRefines Fits enc key answers (delivery.apply effect) (delivery.apply effect') := by
  cases delivery with
  | answered => exact h
  | refused e => exact ⟨fun _ _ _ => .error e, fun _ _ _ => rfl, fun _ _ hv => hv⟩
  | lost e => exact ⟨fun _ _ _ => .error e, h.store, h.fits⟩

end

/-! ### Programs -/

/-- A program over codes does what a program over values does. -/
inductive Program.Refines {ν κ V V' ε α : Type} (Fits : κ → V → Prop) (enc : V → V') :
    Program ν κ V ε α → Program ν κ V' ε α → Prop
  | done (a : α) : Refines Fits enc (.done a) (.done a)
  | command {β β' : Type} {name : ν} {key : κ} {effect : ℕ → Option V → Except ε β × Option V}
      {effect' : ℕ → Option V' → Except ε β' × Option V'} {next : Except ε β → Program ν κ V ε α}
      {next' : Except ε β' → Program ν κ V' ε α} (answers : β → β' → Prop)
      (heffect : EffectRefines Fits enc key answers effect effect')
      (hnext : ∀ r r', Corresponds answers r r' → Refines Fits enc (next r) (next' r')) :
      Refines Fits enc (.command name key effect next) (.command name key effect' next')

namespace Program

variable {ν κ V V' ε α β : Type} {Fits : κ → V → Prop} {enc : V → V'}
  {p : Program ν κ V ε α} {p' : Program ν κ V' ε α}

theorem Refines.result (h : Refines Fits enc p p') : p'.result = p.result := by
  cases h with
  | done a => rfl
  | command answers heffect hnext => rfl

theorem Refines.bind {f : α → Program ν κ V ε β} {f' : α → Program ν κ V' ε β}
    (h : Refines Fits enc p p') (hf : ∀ a, Refines Fits enc (f a) (f' a)) :
    Refines Fits enc (p.bind f) (p'.bind f') := by
  induction h with
  | done a => exact hf a
  | command answers heffect _ ih => exact .command answers heffect ih

variable [DecidableEq κ]

/-- **Step lemma.** A step on the codes is the step on the values. -/
theorem Refines.step (h : Refines Fits enc p p') {s : κ → Option V}
    (hfits : ∀ k, FitsAt Fits k (s k)) (now : ℕ) (delivery : Delivery ε) :
    Refines Fits enc (p.step now delivery s).1
        (p'.step now delivery fun k => (s k).map enc).1 ∧
      ((p'.step now delivery fun k => (s k).map enc).2 =
        fun k => ((p.step now delivery s).2 k).map enc) ∧
      ∀ k, FitsAt Fits k ((p.step now delivery s).2 k) := by
  cases h with
  | done a => exact ⟨.done a, rfl, hfits⟩
  | @command β β' name key effect effect' next next' answers heffect hnext =>
    have happly := heffect.apply delivery
    refine ⟨hnext _ _ (happly.answer now _ (hfits key)), ?_, fun k => ?_⟩
    · funext k
      simp only [Program.step]
      rcases eq_or_ne k key with rfl | hne
      · simp only [Function.update_self]
        exact happly.store now _ (hfits k)
      · simp only [Function.update_of_ne hne]
    · simp only [Program.step]
      rcases eq_or_ne k key with rfl | hne
      · rw [Function.update_self]
        exact happly.fits now _ (hfits k)
      · rw [Function.update_of_ne hne]
        exact hfits k

end Program

/-! ### Interleaved clients -/

namespace Pool

variable {ι ν κ V V' ε α : Type} {Fits : κ → V → Prop} {enc : V → V'}

/-- Clients on codes, and clients on values that fit their keys. -/
structure Refines (Fits : κ → V → Prop) (enc : V → V') (p : Pool ι ν κ V ε α)
    (p' : Pool ι ν κ V' ε α) : Prop where
  program : ∀ i, (p.program i).Refines Fits enc (p'.program i)
  store : p'.store = fun k => (p.store k).map enc
  fits : ∀ k, FitsAt Fits k (p.store k)

variable [DecidableEq ι] [DecidableEq κ] {p : Pool ι ν κ V ε α} {p' : Pool ι ν κ V' ε α}

theorem Refines.step (h : Refines Fits enc p p') (l : PoolLabel ι ε) :
    Refines Fits enc (p.step l) (p'.step l) := by
  obtain ⟨hprogram, hstore, hfits⟩ := (h.program l.client).step h.fits l.now l.delivery
  rw [← h.store] at hprogram hstore
  refine ⟨fun i => ?_, hstore, hfits⟩
  rcases eq_or_ne i l.client with rfl | hne
  · rw [step_program_self, step_program_self]
    exact hprogram
  · rw [step_program_of_ne p hne, step_program_of_ne p' hne]
    exact h.program i

/-- **Run lemma.** Interleaved runs on the codes are the interleaved runs on the values. -/
theorem Refines.run (h : Refines Fits enc p p') (labels : List (PoolLabel ι ε)) :
    Refines Fits enc (p.run labels) (p'.run labels) := by
  induction labels generalizing p p' with
  | nil => exact h
  | cons l labels ih => exact ih (h.step l)

end Pool

end Foundation
