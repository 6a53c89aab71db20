import Mathlib.Data.List.Basic

/-!
# Machines that answer

A deterministic machine takes inputs one by one and answers each.  Two states
are indistinguishable when no sequence of inputs gets different answers from
them; a relation that one step keeps, with equal answers, shows this.
-/

namespace DataCache.Foundation

variable {σ : Type*} {ι : Type*} {ω : Type*}

def answers (step : σ → ι → ω × σ) : σ → List ι → List ω
  | _, [] => []
  | state, input :: inputs =>
      (step state input).1 :: answers step (step state input).2 inputs

def Indistinguishable (step : σ → ι → ω × σ) (first second : σ) : Prop :=
  ∀ inputs, answers step first inputs = answers step second inputs

structure Bisimulation (step : σ → ι → ω × σ) (R : σ → σ → Prop) : Prop where
  answer : ∀ first second input, R first second →
    (step first input).1 = (step second input).1
  next : ∀ first second input, R first second →
    R (step first input).2 (step second input).2

variable {step : σ → ι → ω × σ} {first second : σ}

/-- The allowed inputs keep the relation and are answered alike. -/
theorem answers_eq_of_allowed {R : σ → σ → Prop} {allowed : ι → Prop}
    (hstep : ∀ first second input, allowed input → R first second →
      (step first input).1 = (step second input).1 ∧
        R (step first input).2 (step second input).2)
    (h : R first second) {inputs : List ι}
    (hallowed : ∀ input ∈ inputs, allowed input) :
    answers step first inputs = answers step second inputs := by
  induction inputs generalizing first second with
  | nil => rfl
  | cons input inputs ih =>
      obtain ⟨hanswer, hnext⟩ :=
        hstep first second input (hallowed input List.mem_cons_self) h
      rw [answers, answers, hanswer,
        ih hnext fun other hother => hallowed other (List.mem_cons_of_mem _ hother)]

theorem Bisimulation.indistinguishable {R : σ → σ → Prop}
    (hstep : Bisimulation step R) (h : R first second) :
    Indistinguishable step first second := by
  intro inputs
  refine answers_eq_of_allowed (fun first second input _ hR => ?_) h
    fun input _ => trivial
  exact ⟨hstep.answer first second input hR, hstep.next first second input hR⟩

/-- Indistinguishable states answer the next input alike. -/
theorem Indistinguishable.answer (h : Indistinguishable step first second)
    (input : ι) : (step first input).1 = (step second input).1 :=
  (List.cons.inj (h [input])).1

end DataCache.Foundation
