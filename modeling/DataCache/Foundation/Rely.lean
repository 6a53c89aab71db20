import DataCache.Foundation.Prog

/-!
# Programs beside other threads

While a program runs, other threads may change the state between any two of its
operations; all that is known of them is a relation they keep.  A program is
safe when every operation it issues finds its precondition in spite of them.
-/

namespace DataCache.Foundation.Prog

universe u

variable {Op : Type} {Res : Op → Type} {ε α β : Type} {σ : Type u}

/--
From `s` on, with `rely` steps of others anywhere in between, every operation is
issued under `pre`, and where the program returns `post` holds.
-/
def Safe (effect : Effect Res σ) (rely : σ → σ → Prop) (pre : σ → Op → Prop)
    (post : α → σ → Prop) : Prog Res ε α → σ → Prop
  | ret value, s => ∀ s', rely s s' → post value s'
  | raise _, _ => True
  | call op next, s => ∀ s', rely s s' → pre s' op ∧
      ∀ response s'', effect s' op response s'' →
        Safe effect rely pre post (next response) s''

section Rules

variable {effect : Effect Res σ} {rely : σ → σ → Prop} {pre : σ → Op → Prop}
  {post : α → σ → Prop}

/-- Steps of the others do not disturb. -/
theorem Safe.disturb (htrans : ∀ s s' s'', rely s s' → rely s' s'' → rely s s'')
    {p : Prog Res ε α} {s s' : σ} (h : Safe effect rely pre post p s)
    (hrely : rely s s') : Safe effect rely pre post p s' := by
  cases p with
  | ret value => exact fun s'' hrely' => h s'' (htrans _ _ _ hrely hrely')
  | raise error => trivial
  | call op next => exact fun s'' hrely' => h s'' (htrans _ _ _ hrely hrely')

theorem Safe.issued (hrefl : ∀ s, rely s s) {op : Op}
    {next : Res op → Prog Res ε α} {s : σ}
    (h : Safe effect rely pre post (call op next) s) : pre s op :=
  (h s (hrefl s)).1

theorem Safe.step (hrefl : ∀ s, rely s s) {op : Op}
    {next : Res op → Prog Res ε α} {s s' : σ} {response : Res op}
    (h : Safe effect rely pre post (call op next) s)
    (heffect : effect s op response s') :
    Safe effect rely pre post (next response) s' :=
  (h s (hrefl s)).2 response s' heffect

theorem Safe.returned (hrefl : ∀ s, rely s s) {value : α} {s : σ}
    (h : Safe effect rely pre post (ret value : Prog Res ε α) s) :
    post value s :=
  h s (hrefl s)

theorem Safe.bind {post : β → σ → Prop} {f : α → Prog Res ε β}
    (hrefl : ∀ s, rely s s) :
    ∀ {p : Prog Res ε α} {s : σ},
      Safe effect rely pre (fun value => Safe effect rely pre post (f value)) p s →
      Safe effect rely pre post (p.bind f) s
  | ret _, s, h => h s (hrefl s)
  | raise _, _, _ => trivial
  | call _ _, _, h => fun s' hrely =>
      ⟨(h s' hrely).1, fun response s'' heffect =>
        Safe.bind hrefl ((h s' hrely).2 response s'' heffect)⟩

theorem Safe.mono {post' : α → σ → Prop}
    (hpost : ∀ value s, post value s → post' value s) :
    ∀ {p : Prog Res ε α} {s : σ}, Safe effect rely pre post p s →
      Safe effect rely pre post' p s
  | ret _, _, h => fun s' hrely => hpost _ _ (h s' hrely)
  | raise _, _, _ => trivial
  | call _ _, _, h => fun s' hrely =>
      ⟨(h s' hrely).1, fun response s'' heffect =>
        Safe.mono hpost ((h s' hrely).2 response s'' heffect)⟩

/-- A program whose operations keep what it needs and what others keep. -/
theorem Safe.of_uses {allowed : Op → Prop} {inv : σ → Prop}
    (hrely : ∀ s s', inv s → rely s s' → inv s')
    (hop : ∀ s op, allowed op → inv s → pre s op ∧
      ∀ response s', effect s op response s' → inv s') :
    ∀ {p : Prog Res ε α} {s : σ}, p.uses allowed → inv s →
      Safe effect rely pre (fun _ => inv) p s
  | ret _, _, _, hinv => fun _ h => hrely _ _ hinv h
  | raise _, _, _, _ => trivial
  | call op _, _, huses, hinv => fun s' h => by
      obtain ⟨hpre, hnext⟩ := hop s' op huses.1 (hrely _ _ hinv h)
      exact ⟨hpre, fun response s'' heffect =>
        Safe.of_uses hrely hop (huses.2 response) (hnext response s'' heffect)⟩

theorem Safe.and {pre' : σ → Op → Prop} {post' : α → σ → Prop} :
    ∀ {p : Prog Res ε α} {s : σ}, Safe effect rely pre post p s →
      Safe effect rely pre' post' p s →
      Safe effect rely (fun s op => pre s op ∧ pre' s op)
        (fun value s => post value s ∧ post' value s) p s
  | ret _, _, h, h' => fun s' hrely => ⟨h s' hrely, h' s' hrely⟩
  | raise _, _, _, _ => trivial
  | call _ _, _, h, h' => fun s' hrely =>
      ⟨⟨(h s' hrely).1, (h' s' hrely).1⟩, fun response s'' heffect =>
        ((h s' hrely).2 response s'' heffect).and
          ((h' s' hrely).2 response s'' heffect)⟩

theorem Safe.weaken {pre' : σ → Op → Prop}
    (hpre : ∀ s op, pre s op → pre' s op) :
    ∀ {p : Prog Res ε α} {s : σ}, Safe effect rely pre post p s →
      Safe effect rely pre' post p s
  | ret _, _, h => h
  | raise _, _, _ => trivial
  | call _ _, _, h => fun s' hrely =>
      ⟨hpre _ _ (h s' hrely).1, fun response s'' heffect =>
        ((h s' hrely).2 response s'' heffect).weaken hpre⟩

/-- What the program and the others both keep still holds at the end. -/
theorem Safe.frame {inv : σ → Prop} (hrely : ∀ s s', inv s → rely s s' → inv s')
    (hop : ∀ s op response s', pre s op → inv s → effect s op response s' →
      inv s') :
    ∀ {p : Prog Res ε α} {s : σ}, Safe effect rely pre post p s → inv s →
      Safe effect rely pre (fun value s => post value s ∧ inv s) p s
  | ret _, _, h, hinv => fun s' hs' => ⟨h s' hs', hrely _ _ hinv hs'⟩
  | raise _, _, _, _ => trivial
  | call _ _, _, h, hinv => fun s' hs' =>
      ⟨(h s' hs').1, fun response s'' heffect =>
        ((h s' hs').2 response s'' heffect).frame hrely hop
          (hop _ _ _ _ (h s' hs').1 (hrely _ _ hinv hs') heffect)⟩

end Rules

/-! ## Executions beside other threads -/

theorem Exec.uses {effect : Effect Res σ} {allowed : Op → Prop} {s s' : σ}
    {p p' : Prog Res ε α} (h : Exec effect s p s' p') (huses : p.uses allowed) :
    p'.uses allowed := by
  induction h with
  | refl => exact huses
  | step _ _ ih => exact ih (huses.2 _)

/-- The effect takes in what others do before or after an operation. -/
structure Absorbs (effect : Effect Res σ) (rely : σ → σ → Prop) : Prop where
  before : ∀ s s' op response s'', rely s s' → effect s' op response s'' →
    effect s op response s''
  after : ∀ s op response s' s'', effect s op response s' → rely s' s'' →
    effect s op response s''

/-- What a program's own executions keep, others cannot take from its operations. -/
theorem Safe.of_wp {effect : Effect Res σ} {rely : σ → σ → Prop} {inv : σ → Prop}
    {pre : σ → Op → Prop} {post post' : α → σ → Prop} {fail : ε → σ → Prop}
    (habsorbs : Absorbs effect rely)
    (hpre : ∀ s s' op, inv s → rely s s' → pre s' op)
    (hpost : ∀ value s s', post value s → rely s s' → post' value s') :
    ∀ {p : Prog Res ε α} {s : σ}, inv s → wp effect inv post fail p s →
      Safe effect rely pre post' p s
  | ret _, _, _, h => fun s' hrely => hpost _ _ s' h hrely
  | raise _, _, _, _ => trivial
  | call op _, s, hinv, h => fun s' hrely => ⟨hpre s s' op hinv hrely,
      fun response s'' heffect => by
        obtain ⟨hinv', hnext⟩ :=
          h response s'' (habsorbs.before _ _ _ _ _ hrely heffect)
        exact Safe.of_wp habsorbs hpre hpost hinv' hnext⟩

theorem Safe.exec {effect : Effect Res σ} {rely : σ → σ → Prop}
    {pre : σ → Op → Prop} {post : α → σ → Prop} (hrefl : ∀ s, rely s s) {s s' : σ}
    {p p' : Prog Res ε α} (hexec : Exec effect s p s' p')
    (h : Safe effect rely pre post p s) : Safe effect rely pre post p' s' := by
  induction hexec with
  | refl => exact h
  | step heffect _ ih => exact ih (h.step hrefl heffect)

/-- Executed up to here, and then others have acted. -/
def Beside (effect : Effect Res σ) (rely : σ → σ → Prop) (s : σ) (p : Prog Res ε α)
    (s' : σ) (p' : Prog Res ε α) : Prop :=
  ∃ between, Exec effect s p between p' ∧ rely between s'

section Beside

variable {effect : Effect Res σ} {rely : σ → σ → Prop} {s s' s'' : σ}
  {p p' : Prog Res ε α}

theorem Beside.start (p : Prog Res ε α) (hrely : rely s s') :
    Beside effect rely s p s' p :=
  ⟨s, .refl s p, hrely⟩

theorem Beside.disturb (htrans : ∀ s s' s'', rely s s' → rely s' s'' → rely s s'')
    (h : Beside effect rely s p s' p') (hrely : rely s' s'') :
    Beside effect rely s p s'' p' := by
  obtain ⟨between, hexec, hbetween⟩ := h
  exact ⟨between, hexec, htrans _ _ _ hbetween hrely⟩

theorem Beside.step (hrefl : ∀ s, rely s s) (habsorbs : Absorbs effect rely)
    {op : Op} {next : Res op → Prog Res ε α} {response : Res op}
    (h : Beside effect rely s p s' (call op next))
    (heffect : effect s' op response s'') :
    Beside effect rely s p s'' (next response) := by
  obtain ⟨between, hexec, hbetween⟩ := h
  have hstep := habsorbs.before _ _ _ _ _ hbetween heffect
  exact ⟨s'', hexec.trans (.step hstep (.refl _ _)), hrefl s''⟩

/-- The last operation, if there was one, takes in what came after it. -/
theorem Exec.absorb (habsorbs : Absorbs effect rely)
    (h : Exec effect s p s' p') (hrely : rely s' s'') :
    (s = s' ∧ p = p') ∨ Exec effect s p s'' p' := by
  induction h with
  | refl => exact .inl ⟨rfl, rfl⟩
  | step heffect hrest ih =>
      rcases ih hrely with ⟨rfl, rfl⟩ | hexec
      · exact .inr (.step (habsorbs.after _ _ _ _ _ heffect hrely) (.refl _ _))
      · exact .inr (.step heffect hexec)

end Beside

/-! ## Operations that are programs themselves -/

variable {Op' : Type} {Res' : Op' → Type}

/-- Every operation replaced by a program for it. -/
def expand (implement : (op : Op) → Prog Res' ε (Res op)) :
    Prog Res ε α → Prog Res' ε α
  | ret value => ret value
  | raise error => raise error
  | call op next => (implement op).bind fun response =>
      expand implement (next response)

theorem bind_assoc {γ : Type} (f : α → Prog Res ε β) (g : β → Prog Res ε γ) :
    ∀ p : Prog Res ε α, (p.bind f).bind g = p.bind fun value => (f value).bind g
  | ret _ => rfl
  | raise _ => rfl
  | call op next => by
      simp only [call_bind, bind_assoc f g]

theorem expand_bind (implement : (op : Op) → Prog Res' ε (Res op))
    (f : α → Prog Res ε β) :
    ∀ p : Prog Res ε α, expand implement (p.bind f) =
      (expand implement p).bind fun value => expand implement (f value)
  | ret _ => rfl
  | raise _ => rfl
  | call op next => by
      simp only [call_bind, expand, bind_assoc, expand_bind implement f]

/-- An operation done in one go: its program from beginning to end, undisturbed. -/
def atomically (effect : Effect Res' σ)
    (implement : (op : Op) → Prog Res' ε (Res op)) : Effect Res σ :=
  fun s op response s' => Exec effect s (implement op) s' (ret response)

end DataCache.Foundation.Prog
