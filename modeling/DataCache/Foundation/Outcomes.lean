import DataCache.Foundation.Rely

/-!
# How programs end

Whether a program can end with an exception, which calls an execution went
through, and what was answered on the way.
-/

namespace DataCache.Foundation.Prog

universe u

variable {Op : Type} {Res : Op → Type} {ε α β γ : Type} {σ : Type u}

/-! ## Executions of sequences -/

section Sequences

variable {effect : Effect Res σ} {s s' : σ}

/-- Either the first program is still running, or it has handed on its value. -/
theorem Exec.of_bind {p : Prog Res ε α} {f : α → Prog Res ε β}
    {q : Prog Res ε β} (h : Exec effect s (p.bind f) s' q) :
    (∃ p', Exec effect s p s' p' ∧ q = p'.bind f) ∨
      ∃ value s'', Exec effect s p s'' (ret value) ∧
        Exec effect s'' (f value) s' q := by
  induction p generalizing s with
  | ret value => exact .inr ⟨value, s, .refl _ _, h⟩
  | raise error =>
      cases h
      exact .inl ⟨raise error, .refl _ _, rfl⟩
  | call op next ih =>
      cases h with
      | refl => exact .inl ⟨call op next, .refl _ _, rfl⟩
      | step heffect hrest =>
          rcases ih _ hrest with ⟨p', hexec, heq⟩ | ⟨value, s'', hexec, hnext⟩
          · exact .inl ⟨p', .step heffect hexec, heq⟩
          · exact .inr ⟨value, s'', .step heffect hexec, hnext⟩

theorem Exec.of_bind_ret {f : α → Prog Res ε β} {p : Prog Res ε α}
    {result : β} (h : Exec effect s (p.bind f) s' (ret result)) :
    ∃ value s'', Exec effect s p s'' (ret value) ∧
      Exec effect s'' (f value) s' (ret result) := by
  rcases h.of_bind with ⟨p', hexec, heq⟩ | hdone
  · cases p' with
    | ret value =>
        refine ⟨value, s', hexec, ?_⟩
        rw [heq]
        exact .refl _ _
    | raise error => cases heq
    | call op next => cases heq
  · exact hdone

theorem Exec.of_bind_raise {f : α → Prog Res ε β} {p : Prog Res ε α}
    {error : ε} (h : Exec effect s (p.bind f) s' (raise error)) :
    Exec effect s p s' (raise error) ∨
      ∃ value s'', Exec effect s p s'' (ret value) ∧
        Exec effect s'' (f value) s' (raise error) := by
  rcases h.of_bind with ⟨p', hexec, heq⟩ | hdone
  · cases p' with
    | ret value =>
        refine .inr ⟨value, s', hexec, ?_⟩
        rw [heq]
        exact .refl _ _
    | raise error' =>
        cases heq
        exact .inl hexec
    | call op next => cases heq
  · exact .inr hdone

theorem Exec.catchError {p p' : Prog Res ε α} (h : Exec effect s p s' p')
    (handler : ε → Prog Res ε α) :
    Exec effect s (p.catchError handler) s' (p'.catchError handler) := by
  induction h with
  | refl => exact .refl _ _
  | step heffect _ ih => exact .step heffect ih

/-- Executions of the allowed operations seen through a view of the state. -/
theorem Exec.map {τ : Type u} {effect' : Effect Res τ} {view : σ → τ}
    {allowed : Op → Prop} {p p' : Prog Res ε α}
    (hview : ∀ s op r s', allowed op → effect s op r s' →
      effect' (view s) op r (view s'))
    (h : Exec effect s p s' p') (huses : p.uses allowed) :
    Exec effect' (view s) p (view s') p' := by
  induction h with
  | refl => exact .refl _ _
  | step heffect _ ih =>
      exact .step (hview _ _ _ _ huses.1 heffect) (ih (huses.2 _))

end Sequences

theorem bind_ret : ∀ p : Prog Res ε α, p.bind ret = p
  | ret _ => rfl
  | raise _ => rfl
  | call op next => by
      rw [call_bind]
      exact congrArg _ (funext fun response => bind_ret (next response))

/-! ## Programs that never raise -/

def neverRaises : Prog Res ε α → Prop
  | ret _ => True
  | raise _ => False
  | call _ next => ∀ response, neverRaises (next response)

theorem neverRaises_bind {f : α → Prog Res ε β} :
    ∀ {p : Prog Res ε α}, neverRaises p → (∀ value, neverRaises (f value)) →
      neverRaises (p.bind f)
  | ret _, _, hf => hf _
  | raise _, h, _ => h.elim
  | call _ _, h, hf => fun response => neverRaises_bind (h response) hf

theorem neverRaises_call_bind {op : Op} {f : Res op → Prog Res ε β}
    (hf : ∀ response, neverRaises (f response)) :
    neverRaises ((call op ret).bind f) :=
  hf

theorem neverRaises_catchError {handler : ε → Prog Res ε α}
    (hhandler : ∀ error, neverRaises (handler error)) :
    ∀ p : Prog Res ε α, neverRaises (p.catchError handler)
  | ret _ => trivial
  | raise error => hhandler error
  | call _ next => fun response =>
      neverRaises_catchError hhandler (next response)

theorem neverRaises.exec {effect : Effect Res σ} {s s' : σ}
    {p p' : Prog Res ε α} (h : neverRaises p)
    (hexec : Exec effect s p s' p') : neverRaises p' := by
  induction hexec with
  | refl => exact h
  | step _ _ ih => exact ih (h _)

/-! ## What a program can return -/

/-- Whatever the operations answer, a value that is returned has `post`. -/
def returns (post : α → Prop) : Prog Res ε α → Prop
  | ret value => post value
  | raise _ => True
  | call _ next => ∀ response, returns post (next response)

theorem returns_bind {mid : α → Prop} {post : β → Prop} {f : α → Prog Res ε β} :
    ∀ {p : Prog Res ε α}, returns mid p →
      (∀ value, mid value → returns post (f value)) → returns post (p.bind f)
  | ret _, h, hf => hf _ h
  | raise _, _, _ => trivial
  | call _ _, h, hf => fun response => returns_bind (h response) hf

theorem returns_true : ∀ p : Prog Res ε α, returns (fun _ => True) p
  | ret _ => trivial
  | raise _ => trivial
  | call _ next => fun response => returns_true (next response)

theorem returns.exec {post : α → Prop} {effect : Effect Res σ} {s s' : σ}
    {p p' : Prog Res ε α} (h : returns post p)
    (hexec : Exec effect s p s' p') : returns post p' := by
  induction hexec with
  | refl => exact h
  | step _ _ ih => exact ih (h _)

/-! ## Calls on the way -/

/-- The execution from `p` to `p'` went through `q`, which returned `result`. -/
def Calls (effect : Effect Res σ) (q : Prog Res ε γ) (result : γ) (s : σ)
    (p : Prog Res ε α) (s' : σ) (p' : Prog Res ε α) : Prop :=
  ∃ s₁ s₂ rest, Exec effect s p s₁ (q.bind rest) ∧
    Exec effect s₁ q s₂ (ret result) ∧ Exec effect s₂ (rest result) s' p'

section Calls

variable {effect : Effect Res σ} {q : Prog Res ε γ} {result : γ} {s s' s'' : σ}
  {p : Prog Res ε α}

theorem Calls.first {f : γ → Prog Res ε α} {p' : Prog Res ε α}
    (h : Exec effect s q s'' (ret result))
    (hrest : Exec effect s'' (f result) s' p') :
    Calls effect q result s (q.bind f) s' p' :=
  ⟨s, s'', f, .refl _ _, h, hrest⟩

theorem Calls.later {f : α → Prog Res ε β} {value : α} {p' : Prog Res ε β}
    (h : Exec effect s p s'' (ret value))
    (hcalls : Calls effect q result s'' (f value) s' p') :
    Calls effect q result s (p.bind f) s' p' := by
  obtain ⟨s₁, s₂, rest, hbefore, hcall, hafter⟩ := hcalls
  exact ⟨s₁, s₂, rest, (h.bind f).trans hbefore, hcall, hafter⟩

theorem Calls.within {f : α → Prog Res ε β} {value : α} {p' : Prog Res ε β}
    (hcalls : Calls effect q result s p s'' (ret value))
    (hrest : Exec effect s'' (f value) s' p') :
    Calls effect q result s (p.bind f) s' p' := by
  obtain ⟨s₁, s₂, rest, hbefore, hcall, hafter⟩ := hcalls
  have hbound := hbefore.bind f
  rw [bind_assoc] at hbound
  exact ⟨s₁, s₂, fun result => (rest result).bind f, hbound, hcall,
    (hafter.bind f).trans hrest⟩

end Calls

/-! ## Logs -/

/-- An operation and what it was answered. -/
structure Answer (Res : Op → Type) where
  op : Op
  response : Res op

/-- Every answer is added to a log. -/
def Logged (effect : Effect Res σ) : Effect Res (σ × List (Answer Res)) :=
  fun s op response s' => effect s.1 op response s'.1 ∧
    s'.2 = s.2 ++ [⟨op, response⟩]

theorem log_grows {effect : Effect Res σ} {s s' : σ × List (Answer Res)}
    {p p' : Prog Res ε α} (h : Exec (Logged effect) s p s' p') :
    s.2 <+: s'.2 := by
  induction h with
  | refl => exact List.prefix_refl _
  | step heffect _ ih =>
      refine List.IsPrefix.trans ?_ ih
      rw [heffect.2]
      exact List.prefix_append _ _

/-- The first answer of an execution is the next one of its log. -/
theorem answer_logged {effect : Effect Res σ} {s s' t : σ × List (Answer Res)}
    {op : Op} {response : Res op} {p q : Prog Res ε α}
    (heffect : Logged effect s op response s')
    (hrest : Exec (Logged effect) s' p t q) :
    s.2 ++ [⟨op, response⟩] <+: t.2 :=
  heffect.2 ▸ log_grows hrest

theorem answer_unique {effect : Effect Res σ}
    {s s' t u u' v : σ × List (Answer Res)} {op op' : Op} {response : Res op}
    {response' : Res op'} {p q p' q' : Prog Res ε α}
    (heffect : Logged effect s op response s')
    (hrest : Exec (Logged effect) s' p t q)
    (heffect' : Logged effect u op' response' u')
    (hrest' : Exec (Logged effect) u' p' v q') (hstart : s.2 = u.2)
    (hend : t.2 = v.2) :
    (⟨op, response⟩ : Answer Res) = ⟨op', response'⟩ := by
  have hstarts := answer_logged heffect hrest
  have hstarts' := answer_logged heffect' hrest'
  rw [← hend, ← hstart] at hstarts'
  have hsame := (List.prefix_of_prefix_length_le hstarts hstarts'
    (by simp)).eq_of_length (by simp)
  exact List.singleton_inj.mp (List.append_cancel_left hsame)

theorem log_ne_of_step {effect : Effect Res σ} {s s' t : σ × List (Answer Res)}
    {op : Op} {response : Res op} {p q : Prog Res ε α}
    (heffect : Logged effect s op response s')
    (hrest : Exec (Logged effect) s' p t q) : s.2 ≠ t.2 := by
  intro heq
  have hlength := (answer_logged heffect hrest).length_le
  rw [← heq, List.length_append, List.length_singleton] at hlength
  omega

/-- What is left of a program depends on its log only. -/
theorem Exec.rest_unique {effect : Effect Res σ} {p q q' : Prog Res ε α}
    {s t s' t' : σ × List (Answer Res)} (h : Exec (Logged effect) s p t q)
    (h' : Exec (Logged effect) s' p t' q') (hstart : s.2 = s'.2)
    (hend : t.2 = t'.2) : q = q' := by
  induction h generalizing s' with
  | refl s p =>
      cases h' with
      | refl => rfl
      | step heffect hrest =>
          exact absurd (hstart.symm.trans hend) (log_ne_of_step heffect hrest)
  | step heffect hrest ih =>
      cases h' with
      | refl =>
          exact absurd (hstart.trans hend.symm) (log_ne_of_step heffect hrest)
      | step heffect' hrest' =>
          cases answer_unique heffect hrest heffect' hrest' hstart hend
          exact ih hrest' (by rw [heffect.2, heffect'.2, hstart]) hend

def logging (handler : σ → (op : Op) → Option (Res op × σ))
    (s : σ × List (Answer Res)) (op : Op) :
    Option (Res op × (σ × List (Answer Res))) :=
  (handler s.1 op).map fun answer =>
    (answer.1, answer.2, s.2 ++ [⟨op, answer.1⟩])

theorem logged_logging {effect : Effect Res σ}
    {handler : σ → (op : Op) → Option (Res op × σ)}
    (hhandler : ∀ s op r s', handler s op = some (r, s') → effect s op r s') :
    ∀ s op r s', logging handler s op = some (r, s') →
      Logged effect s op r s' := by
  intro s op r s' h
  obtain ⟨answer, hanswer, heq⟩ := Option.map_eq_some_iff.mp h
  cases heq
  exact ⟨hhandler _ _ _ _ hanswer, rfl⟩

/-- The program raises against this handler. -/
def breaks (handler : σ → (op : Op) → Option (Res op × σ))
    (p : Prog Res ε α) (s : σ) : Bool :=
  match tryRun handler p s with
  | some (.error _, _) => true
  | _ => false

theorem exec_of_breaks {effect : Effect Res σ}
    {handler : σ → (op : Op) → Option (Res op × σ)}
    (hhandler : ∀ s op r s', handler s op = some (r, s') → effect s op r s')
    {p : Prog Res ε α} {s : σ} (h : breaks handler p s = true) :
    ∃ error s', Exec effect s p s' (raise error) := by
  unfold breaks at h
  split at h
  next error s' hrun => exact ⟨error, s', exec_tryRun hhandler hrun⟩
  · cases h

end DataCache.Foundation.Prog
