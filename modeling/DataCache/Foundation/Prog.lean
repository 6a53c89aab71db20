import Mathlib.Logic.Basic

/-!
# Programs over operations

A program issues operations one at a time and continues with their responses.
What an operation may answer, and how it changes the state, is a relation, so
one program can be run against a faulty disk, a reliable one, or one that other
threads change in between.  Cutting a program off anywhere is an execution too.
-/

namespace DataCache.Foundation

universe u

variable {Op : Type} {Res : Op → Type} {ε α β : Type} {σ : Type u}

inductive Prog {Op : Type} (Res : Op → Type) (ε α : Type)
  | ret (value : α)
  | raise (error : ε)
  | call (op : Op) (next : Res op → Prog Res ε α)

namespace Prog

def bind : Prog Res ε α → (α → Prog Res ε β) → Prog Res ε β
  | ret value, f => f value
  | raise error, _ => raise error
  | call op next, f => call op fun response => bind (next response) f

/-- Run `handler` on the exception a program ends with. -/
def catchError : Prog Res ε α → (ε → Prog Res ε α) → Prog Res ε α
  | ret value, _ => ret value
  | raise error, handler => handler error
  | call op next, handler => call op fun response =>
      catchError (next response) handler

instance : Monad (Prog Res ε) where
  pure := ret
  bind := bind

@[simp] theorem pure_eq_ret (value : α) :
    (pure value : Prog Res ε α) = ret value := rfl

@[simp] theorem bind_eq_bind (p : Prog Res ε α) (f : α → Prog Res ε β) :
    p >>= f = p.bind f := rfl

@[simp] theorem ret_bind (value : α) (f : α → Prog Res ε β) :
    (ret value).bind f = f value := rfl

@[simp] theorem raise_bind (error : ε) (f : α → Prog Res ε β) :
    (raise error : Prog Res ε α).bind f = raise error := rfl

@[simp] theorem call_bind (op : Op) (next : Res op → Prog Res ε α)
    (f : α → Prog Res ε β) :
    (call op next).bind f = call op fun response => (next response).bind f := rfl

/-! ## Executions -/

/-- `effect s op r s'`: in state `s` the operation may answer `r` and leave `s'`. -/
abbrev Effect (Res : Op → Type) (σ : Type u) : Type (max u 0) :=
  σ → (op : Op) → Res op → σ → Prop

/-- Zero or more operations of a program, stopping anywhere. -/
inductive Exec (effect : Effect Res σ) :
    σ → Prog Res ε α → σ → Prog Res ε α → Prop
  | refl (s : σ) (p : Prog Res ε α) : Exec effect s p s p
  | step {s s' s'' : σ} {op : Op} {next : Res op → Prog Res ε α}
      {response : Res op} {p : Prog Res ε α} (heffect : effect s op response s')
      (hrest : Exec effect s' (next response) s'' p) :
      Exec effect s (call op next) s'' p

theorem Exec.trans {effect : Effect Res σ} {s s' s'' : σ}
    {p p' p'' : Prog Res ε α} (hfirst : Exec effect s p s' p')
    (hsecond : Exec effect s' p' s'' p'') : Exec effect s p s'' p'' := by
  induction hfirst with
  | refl => exact hsecond
  | step heffect _ ih => exact .step heffect (ih hsecond)

theorem Exec.bind {effect : Effect Res σ} {s s' : σ} {p p' : Prog Res ε α}
    (h : Exec effect s p s' p') (f : α → Prog Res ε β) :
    Exec effect s (p.bind f) s' (p'.bind f) := by
  induction h with
  | refl => exact .refl _ _
  | step heffect _ ih => exact .step heffect ih

theorem Exec.mono {effect effect' : Effect Res σ} {s s' : σ}
    {p p' : Prog Res ε α}
    (heffect : ∀ s op r s', effect s op r s' → effect' s op r s')
    (h : Exec effect s p s' p') : Exec effect' s p s' p' := by
  induction h with
  | refl s p => exact .refl s p
  | step hstep _ ih => exact .step (heffect _ _ _ _ hstep) ih

/-- Run a program against a state that answers every operation in one way. -/
def runWith (handler : σ → (op : Op) → Res op × σ) :
    Prog Res ε α → σ → Except ε α × σ
  | ret value, s => (.ok value, s)
  | raise error, s => (.error error, s)
  | call op next, s => runWith handler (next (handler s op).1) (handler s op).2

theorem runWith_bind {handler : σ → (op : Op) → Res op × σ}
    {f : α → Prog Res ε β} {value : α} {s' : σ} {p : Prog Res ε α} :
    ∀ {s : σ}, runWith handler p s = (.ok value, s') →
      runWith handler (p.bind f) s = runWith handler (f value) s' := by
  induction p with
  | ret value' =>
      intro s h
      cases h
      rfl
  | raise error => exact fun h => by cases h
  | call op next ih => exact fun h => ih _ h

def ofExcept : Except ε α → Prog Res ε α
  | .ok value => ret value
  | .error error => raise error

/-- What a deterministic handler computes is one of the executions. -/
theorem exec_runWith {effect : Effect Res σ}
    {handler : σ → (op : Op) → Res op × σ}
    (hhandler : ∀ s op, effect s op (handler s op).1 (handler s op).2) :
    ∀ (p : Prog Res ε α) (s : σ),
      Exec effect s p (runWith handler p s).2
        (ofExcept (runWith handler p s).1) := by
  intro p
  induction p with
  | ret value => exact fun s => .refl s _
  | raise error => exact fun s => .refl s _
  | call op next ih => exact fun s => .step (hhandler s op) (ih _ _)

/-- Run a program against a state that answers some operations, each in one way. -/
def tryRun (handler : σ → (op : Op) → Option (Res op × σ)) :
    Prog Res ε α → σ → Option (Except ε α × σ)
  | ret value, s => some (.ok value, s)
  | raise error, s => some (.error error, s)
  | call op next, s =>
      match handler s op with
      | some (response, s') => tryRun handler (next response) s'
      | none => none

theorem exec_tryRun {effect : Effect Res σ}
    {handler : σ → (op : Op) → Option (Res op × σ)}
    (hhandler : ∀ s op r s', handler s op = some (r, s') → effect s op r s') :
    ∀ {p : Prog Res ε α} {s s' : σ} {outcome : Except ε α},
      tryRun handler p s = some (outcome, s') →
      Exec effect s p s' (ofExcept outcome) := by
  intro p
  induction p with
  | ret value =>
      intro s s' outcome h
      cases h
      exact .refl _ _
  | raise error =>
      intro s s' outcome h
      cases h
      exact .refl _ _
  | call op next ih =>
      intro s s' outcome h
      unfold tryRun at h
      split at h
      next response s'' hresponse => exact .step (hhandler _ _ _ _ hresponse) (ih _ h)
      · cases h

/-- The program returns against this handler, and the check holds then. -/
def passes (handler : σ → (op : Op) → Option (Res op × σ))
    (check : α → σ → Bool) (p : Prog Res ε α) (s : σ) : Bool :=
  match tryRun handler p s with
  | some (.ok value, s') => check value s'
  | _ => false

theorem exec_of_passes {effect : Effect Res σ}
    {handler : σ → (op : Op) → Option (Res op × σ)}
    (hhandler : ∀ s op r s', handler s op = some (r, s') → effect s op r s')
    {check : α → σ → Bool} {p : Prog Res ε α} {s : σ}
    (h : passes handler check p s = true) :
    ∃ value s', Exec effect s p s' (ret value) ∧ check value s' = true := by
  unfold passes at h
  split at h
  next value s' hrun => exact ⟨value, s', exec_tryRun hhandler hrun, h⟩
  · cases h

/-! ## Weakest preconditions -/

/--
Every execution from `s` keeps `inv` after each operation and, where it ends,
returns with `post` or raises with `fail`.
-/
def wp (effect : Effect Res σ) (inv : σ → Prop) (post : α → σ → Prop)
    (fail : ε → σ → Prop) : Prog Res ε α → σ → Prop
  | ret value, s => post value s
  | raise error, s => fail error s
  | call op next, s => ∀ response s', effect s op response s' →
      inv s' ∧ wp effect inv post fail (next response) s'

section Rules

variable {effect : Effect Res σ} {inv : σ → Prop} {post : α → σ → Prop}
  {fail : ε → σ → Prop}

@[simp] theorem wp_ret (value : α) (s : σ) :
    wp effect inv post fail (ret value) s ↔ post value s := Iff.rfl

@[simp] theorem wp_raise (error : ε) (s : σ) :
    wp effect inv post fail (raise error : Prog Res ε α) s ↔ fail error s :=
  Iff.rfl

theorem wp_mono {inv' : σ → Prop} {post' : α → σ → Prop} {fail' : ε → σ → Prop}
    (hinv : ∀ s, inv s → inv' s) (hpost : ∀ value s, post value s → post' value s)
    (hfail : ∀ error s, fail error s → fail' error s) :
    ∀ {p : Prog Res ε α} {s : σ}, wp effect inv post fail p s →
      wp effect inv' post' fail' p s
  | ret _, _, h => hpost _ _ h
  | raise _, _, h => hfail _ _ h
  | call _ _, _, h => fun response s' heffect =>
      ⟨hinv _ (h response s' heffect).1,
        wp_mono hinv hpost hfail (h response s' heffect).2⟩

theorem wp_bind {post : β → σ → Prop} {f : α → Prog Res ε β} :
    ∀ {p : Prog Res ε α} {s : σ},
      wp effect inv (fun value => wp effect inv post fail (f value)) fail p s →
      wp effect inv post fail (p.bind f) s
  | ret _, _, h => h
  | raise _, _, h => h
  | call _ _, _, h => fun response s' heffect =>
      ⟨(h response s' heffect).1, wp_bind (h response s' heffect).2⟩

theorem wp_catchError {handler : ε → Prog Res ε α} :
    ∀ {p : Prog Res ε α} {s : σ},
      wp effect inv post (fun error => wp effect inv post fail (handler error))
        p s →
      wp effect inv post fail (p.catchError handler) s
  | ret _, _, h => h
  | raise _, _, h => h
  | call _ _, _, h => fun response s' heffect =>
      ⟨(h response s' heffect).1, wp_catchError (h response s' heffect).2⟩

theorem wp_and {inv' : σ → Prop} {post' : α → σ → Prop} {fail' : ε → σ → Prop} :
    ∀ {p : Prog Res ε α} {s : σ}, wp effect inv post fail p s →
      wp effect inv' post' fail' p s →
      wp effect (fun s => inv s ∧ inv' s) (fun value s => post value s ∧ post' value s)
        (fun error s => fail error s ∧ fail' error s) p s
  | ret _, _, h, h' => ⟨h, h'⟩
  | raise _, _, h, h' => ⟨h, h'⟩
  | call _ _, _, h, h' => fun response s' heffect =>
      ⟨⟨(h response s' heffect).1, (h' response s' heffect).1⟩,
        wp_and (h response s' heffect).2 (h' response s' heffect).2⟩

/-- What a weakest precondition promises of every execution, cut or not. -/
theorem wp_exec {s s' : σ} {p p' : Prog Res ε α}
    (hexec : Exec effect s p s' p') (hinv : inv s)
    (h : wp effect inv post fail p s) : inv s' ∧ wp effect inv post fail p' s' := by
  induction hexec with
  | refl => exact ⟨hinv, h⟩
  | step heffect _ ih =>
      obtain ⟨hinv', hrest⟩ := h _ _ heffect
      exact ih hinv' hrest

/-- Where a program returns, it has been executed up to there. -/
theorem wp_traced : ∀ {p : Prog Res ε α} {s : σ},
    wp effect inv post fail p s →
    wp effect inv (fun value s' => post value s' ∧ Exec effect s p s' (ret value))
      fail p s
  | ret _, _, h => ⟨h, .refl _ _⟩
  | raise _, _, h => h
  | call _ _, _, h => fun response s' heffect =>
      ⟨(h response s' heffect).1, wp_mono (fun _ => id)
        (fun _ _ hpost => ⟨hpost.1, .step heffect hpost.2⟩) (fun _ _ => id)
        (wp_traced (h response s' heffect).2)⟩

end Rules

/-! ## The operations a program uses -/

/-- Every operation the program can ever issue is allowed. -/
def uses (allowed : Op → Prop) : Prog Res ε α → Prop
  | ret _ => True
  | raise _ => True
  | call op next => allowed op ∧ ∀ response, uses allowed (next response)

@[simp] theorem uses_ret {allowed : Op → Prop} (value : α) :
    uses allowed (ret value : Prog Res ε α) := trivial

@[simp] theorem uses_raise {allowed : Op → Prop} (error : ε) :
    uses allowed (raise error : Prog Res ε α) := trivial

@[simp] theorem uses_call {allowed : Op → Prop} (op : Op)
    (next : Res op → Prog Res ε α) :
    uses allowed (call op next) ↔
      allowed op ∧ ∀ response, uses allowed (next response) := Iff.rfl

theorem uses_true : ∀ p : Prog Res ε α, uses (fun _ => True) p
  | ret _ => trivial
  | raise _ => trivial
  | call _ next => ⟨trivial, fun response => uses_true (next response)⟩

theorem uses_bind {allowed : Op → Prop} {f : α → Prog Res ε β} :
    ∀ {p : Prog Res ε α}, uses allowed p → (∀ value, uses allowed (f value)) →
      uses allowed (p.bind f)
  | ret _, _, hf => hf _
  | raise _, _, _ => trivial
  | call _ _, hp, hf => ⟨hp.1, fun response => uses_bind (hp.2 response) hf⟩

theorem uses_call_bind {allowed : Op → Prop} {op : Op}
    {f : Res op → Prog Res ε β} (hop : allowed op)
    (hf : ∀ response, uses allowed (f response)) :
    uses allowed ((call op ret).bind f) :=
  ⟨hop, hf⟩

theorem uses_catchError {allowed : Op → Prop} {handler : ε → Prog Res ε α} :
    ∀ {p : Prog Res ε α}, uses allowed p → (∀ error, uses allowed (handler error)) →
      uses allowed (p.catchError handler)
  | ret _, _, _ => trivial
  | raise _, _, hf => hf _
  | call _ _, hp, hf => ⟨hp.1, fun response => uses_catchError (hp.2 response) hf⟩

theorem uses_mono {allowed allowed' : Op → Prop}
    (h : ∀ op, allowed op → allowed' op) :
    ∀ {p : Prog Res ε α}, uses allowed p → uses allowed' p
  | ret _, _ => trivial
  | raise _, _ => trivial
  | call _ _, hp => ⟨h _ hp.1, fun response => uses_mono h (hp.2 response)⟩

theorem uses_forall {ι : Type} {allowed : ι → Op → Prop} :
    ∀ {p : Prog Res ε α}, (∀ i, uses (allowed i) p) →
      uses (fun op => ∀ i, allowed i op) p
  | ret _, _ => trivial
  | raise _, _ => trivial
  | call _ _, h => ⟨fun i => (h i).1, fun response =>
      uses_forall fun i => (h i).2 response⟩

/-- An invariant of the allowed operations holds throughout. -/
theorem wp_of_uses {effect : Effect Res σ} {inv : σ → Prop}
    {allowed : Op → Prop}
    (hop : ∀ s op r s', allowed op → inv s → effect s op r s' → inv s') :
    ∀ {p : Prog Res ε α} {s : σ}, uses allowed p → inv s →
      wp effect inv (fun _ => inv) (fun _ => inv) p s
  | ret _, _, _, hinv => hinv
  | raise _, _, _, hinv => hinv
  | call op _, s, hp, hinv => fun response s' heffect => by
      have hinv' := hop s op response s' hp.1 hinv heffect
      exact ⟨hinv', wp_of_uses hop (hp.2 response) hinv'⟩

end Prog

end DataCache.Foundation
