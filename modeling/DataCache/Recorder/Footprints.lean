import DataCache.Recorder.World
import DataCache.Retention.Uploads

/-!
# What the threads do to a directory

A callback touches the markers of its directory, the uploader its own files, and
the storage worker stays below the directory of its job or removes a whole one.
-/

namespace DataCache.Recorder

open DataCache.Foundation DataCache.Storage DataCache.EventState
open DataCache.Upload (Transfer UploadOp acquireLease candidatesAmong dropLease
  failureExpired files isCandidate leaseActive markFailed uploadDirectory)
open DataCache.Retention (ForFiles Leasing Looking Sending Sends files_uses
  leaseActive_uses existsOrThrow_looking failureExpired_looking
  transferDirectory_sends collectFiles_sends markFailed_uses)

section Directories

variable {codec : Codec} {directory : Text} {s s' : Store} {op : FsOp}
  {r : op.Res}

theorem Fresh.aside (h : Fresh directory s.disk) (haside : Aside directory s s') :
    Fresh directory s'.disk where
  bare path hshown := by
    rw [(haside _ (owned_of_shown hshown)).isFile]
    exact h.bare path hshown
  absent := h.absent.of_sameAt (haside _ (owned_complete directory))

theorem sweeps_of_removed (h : directory ∉ removed op) :
    sweeps directory op = false := by
  cases op with
  | removeAll path =>
      simp only [sweeps, decide_eq_false_iff_not]
      rintro rfl
      exact h List.mem_cons_self
  | _ => rfl

theorem isDir_kept (heffect : Effect codec s op r s')
    (hremoval : ∀ target, op = .removeAll target → ¬target <+: [directory])
    (hdir : s.disk.isDir [directory] = true) :
    s'.disk.isDir [directory] = true := by
  rw [(heffect.sameAt_of_isDir (List.cons_ne_nil _ _) hdir hremoval).isDir, hdir]

/-! ## The callbacks -/

/-- A marker operation makes directories, or changes one hidden file. -/
theorem markerOp_cases (h : MarkerOp directory op) :
    (∃ path, op = .createDirectories path) ∨
      ∀ path, op.Touches path → ∃ rest, path = [directory, '.' :: rest] := by
  have hhidden : ∀ {name : Text}, name ∈ markerNames → ∃ rest, name = '.' :: rest := by
    intro name hname
    simp only [markerNames, List.mem_cons, List.not_mem_nil, or_false] at hname
    rcases hname with rfl | rfl | rfl <;> exact ⟨_, rfl⟩
  have hpath : ∀ {name : Text} {path : Path}, name ∈ markerNames →
      path = markerPath directory name → ∃ rest, path = [directory, '.' :: rest] := by
    rintro name path hname rfl
    obtain ⟨rest, rfl⟩ := hhidden hname
    exact ⟨rest, rfl⟩
  have htemp : ∀ {name : Text} {path : Path}, name ∈ markerNames →
      path = tempPath (markerPath directory name) →
      ∃ rest, path = [directory, '.' :: rest] := by
    rintro name path hname rfl
    obtain ⟨rest, rfl⟩ := hhidden hname
    exact ⟨_, rfl⟩
  rcases h with rfl | rfl | ⟨name, -, rfl⟩ | ⟨name, hname, rfl⟩ |
    ⟨name, hname, hreplace⟩
  · exact .inr fun _ htouches => absurd htouches id
  · exact .inr fun _ htouches => absurd htouches id
  · exact .inr fun _ htouches => absurd htouches id
  · exact .inr fun _ => hpath hname
  · cases op with
    | createDirectories path => exact .inl ⟨path, rfl⟩
    | openTrunc path => cases hreplace; exact .inr fun _ => htemp hname
    | append path data => cases hreplace; exact .inr fun _ => htemp hname
    | syncFile path => cases hreplace; exact .inr fun _ => htemp hname
    | syncDirectory path => exact .inr fun _ htouches => absurd htouches id
    | rename source target =>
        obtain ⟨rfl, rfl⟩ := hreplace
        exact .inr fun _ htouches => htouches.elim (htemp hname) (hpath hname)
    | remove path =>
        refine .inr fun _ htouches => ?_
        cases htouches
        exact hreplace.elim (htemp hname) (hpath hname)
    | _ => exact absurd hreplace id

theorem Fresh.marked (h : Fresh directory s.disk) (hop : MarkerOp directory op)
    (hleaves : Leaves (completePath directory) op)
    (heffect : Effect codec s op r s') : Fresh directory s'.disk := by
  refine ⟨fun path hshown => ?_, ?_⟩
  · rcases markerOp_cases hop with ⟨target, rfl⟩ | htouches
    · have hread : s'.disk.read? (directory :: path) =
          s.disk.read? (directory :: path) := by
        rcases heffect with ⟨-, disk, hdisk, rfl⟩ | ⟨-, made, disk, -, hdisk, rfl⟩ <;>
          exact Disk.read?_mkdirs hdisk
      rw [Disk.isFile, hread]
      exact h.bare path hshown
    · refine (heffect.sameAt fun htouched => ?_).isFile.trans (h.bare path hshown)
      obtain ⟨rest, heq⟩ := htouches _ htouched
      cases heq
      exact hshown.1 rfl
  · have hwatched : WorkerEffect codec directory ⟨s, false⟩ op r
        ⟨s', false || sweeps directory op⟩ :=
      ⟨s, s', .refl _ _, heffect, .refl _ _, rfl⟩
    exact hwatched.absent (owned_complete directory) hleaves h.absent

theorem begin_leaves (directory eventName : Text) (acceptedAtNs : Int) :
    (EventState.begin directory eventName acceptedAtNs).uses
      (Leaves (completePath directory)) :=
  Prog.uses_mono (fun _ => @replaceOp_leaves directory .pending .complete nofun _)
    (EventState.writeAtomically_uses _ _)

theorem begin_marks (directory eventName : Text) (acceptedAtNs : Int) :
    (EventState.begin directory eventName acceptedAtNs).uses (MarkerOp directory) :=
  writeMarker_uses ".pending" (by decide) _

/-! ## The uploader -/

/-- Makes at most these directories, and changes no file but the uploader's own. -/
structure Tending (made : List Text) (op : FsOp) : Prop where
  touched : ∀ path, op.Touches path → path = [] ∨
    (∃ directory ∈ made, path = [directory]) ∨
    ∃ directory name, (".upload" : Text) <+: name ∧ path = [directory, name]
  spared : ∀ target, op ≠ .removeAll target

variable {made : List Text}

theorem Tending.aside (h : Tending made op) (heffect : Effect codec s op r s')
    (hdir : directory ∈ made → s.disk.isDir [directory] = true) :
    Aside directory s s' := by
  intro path howned
  by_cases htouches : op.Touches path
  · rcases h.touched path htouches with rfl | ⟨other, hmade, rfl⟩ |
      ⟨other, name, hname, rfl⟩
    · exact absurd rfl howned.ne_nil
    · obtain ⟨rest, heq, -⟩ := howned
      cases heq
      exact heffect.sameAt_of_isDir (List.cons_ne_nil _ _) (hdir hmade)
        fun target heq => absurd heq (h.spared target)
    · obtain ⟨rest, heq, hnot⟩ := howned
      cases heq
      exact absurd hname hnot
  · exact heffect.sameAt htouches

theorem Tending.quiet (h : ∀ path, ¬op.Touches path) : Tending made op := by
  refine ⟨fun path htouches => absurd htouches (h path), ?_⟩
  rintro target rfl
  exact h target List.prefix_rfl

theorem Tending.remove {name : Text} (hname : (".upload" : Text) <+: name) :
    Tending made (.remove [directory, name]) :=
  ⟨fun _ htouches => .inr (.inr ⟨directory, name, hname, htouches⟩), nofun⟩

theorem Tending.replaceOp {name : Text} (hname : (".upload" : Text) <+: name)
    (h : ReplaceOp [directory, name] op) : Tending [directory] op := by
  have hat : ∀ {op : FsOp}, (∀ path, op.Touches path →
      path = [directory, name] ∨ path = [directory, name ++ ".tmp"]) →
      (∀ target, op ≠ .removeAll target) → Tending [directory] op :=
    fun htouches hremoval => ⟨fun path htouched => .inr (.inr
      ((htouches path htouched).elim (fun heq => ⟨directory, name, hname, heq⟩)
        fun heq => ⟨directory, _, hname.trans (List.prefix_append _ _), heq⟩)),
      hremoval⟩
  cases op with
  | createDirectories path =>
      obtain rfl : path = [directory] := h
      refine ⟨fun path htouched => ?_, nofun⟩
      rcases List.prefix_concat_iff.mp
        (show path <+: [] ++ [directory] from htouched) with rfl | hnil
      · exact .inr (.inl ⟨directory, List.mem_singleton_self _, rfl⟩)
      · exact .inl (List.prefix_nil.mp hnil)
  | openTrunc path => cases h; exact hat (fun _ => .inr) nofun
  | append path data => cases h; exact hat (fun _ => .inr) nofun
  | syncFile path => cases h; exact hat (fun _ => .inr) nofun
  | syncDirectory path => exact .quiet fun _ => id
  | rename source target =>
      obtain ⟨rfl, rfl⟩ := h
      exact hat (fun _ htouches => htouches.symm) nofun
  | remove path =>
      refine hat (fun _ htouches => ?_) nofun
      cases htouches
      exact h.symm
  | _ => exact absurd h id

theorem tending_of_looking (h : Looking op) : Tending made op := by
  cases h with
  | quiet h => exact .quiet h
  | dropping directory => exact .remove (by decide)
  | retrying directory => exact .remove (by decide)

theorem tending_of_sending (h : Sending directory op) : Tending [directory] op := by
  cases h with
  | quiet h => exact .quiet h
  | identifying h => exact .replaceOp (by decide) h
  | marking h => exact .replaceOp (by decide) h

end Directories

/-! ### Its programs -/

/-- Of file-system calls, only those that tend the directories. -/
abbrev Tends {α : Type} (made : List Text) (p : Transfer α) : Prop :=
  p.uses (ForFiles (Tending made))

section Programs

variable {config : Upload.Config} {directory : Text} {made : List Text} {α : Type}

theorem tends_of_looking {p : Transfer α} (h : p.uses (ForFiles Looking)) :
    Tends made p :=
  Prog.uses_mono (fun _ h => h.mono fun _ => tending_of_looking) h

theorem leaseActive_tends (config : Upload.Config) (directory : Text) :
    Tends made (files (leaseActive config directory)) :=
  tends_of_looking (files_uses (Prog.uses_mono (fun _ => Leasing.looking)
    (leaseActive_uses config directory)))

/-! ### The search -/

/-- What has been seen to have a `.complete` stays so. -/
def Sees (seen seen' : Text → Prop) : Prop :=
  ∀ directory, seen directory → seen' directory

theorem Sees.refl (seen : Text → Prop) : Sees seen seen := fun _ => id

theorem Sees.trans (seen seen' seen'' : Text → Prop) (h : Sees seen seen')
    (h' : Sees seen' seen'') : Sees seen seen'' :=
  fun directory hseen => h' directory (h directory hseen)

/-- This answer shows that the directory holds `.complete`. -/
def Shows (directory : Text) : (op : UploadOp) → op.Res → Prop
  | .fs (.exists path), found => path = completePath directory ∧ found = some true
  | _, _ => False

def Sights : Prog.Effect UploadOp.Res (Text → Prop) := fun seen op r seen' =>
  ∀ directory, seen directory ∨ Shows directory op r → seen' directory

/-- Whatever it is answered, the program looks on, and `post` holds at the end. -/
abbrev SearchesFor {α : Type} (post : α → (Text → Prop) → Prop) (p : Transfer α)
    (seen : Text → Prop) : Prop :=
  Prog.Safe Sights Sees (fun _ => ForFiles (Tending [])) post p seen

/-- A search that finds directories of these, with `.complete` seen in them. -/
abbrev Searches (directories : List Text) : Transfer (List Text) →
    (Text → Prop) → Prop :=
  SearchesFor fun candidates seen => ∀ directory ∈ candidates,
    directory ∈ directories ∧ seen directory

section Search

variable {seen : Text → Prop}

theorem searchesFor_of_tends {p : Transfer α} {inv : (Text → Prop) → Prop}
    (hinv : ∀ seen seen', inv seen → Sees seen seen' → inv seen')
    (h : Tends [] p) (hseen : inv seen) : SearchesFor (fun _ => inv) p seen :=
  Prog.Safe.of_uses hinv (fun seen _ hop hseen => ⟨hop, fun _ seen' hsights =>
    hinv seen seen' hseen fun directory h => hsights directory (.inl h)⟩) h hseen

theorem completeExists_searches : SearchesFor
    (fun found seen => found = true → seen directory)
    (files (existsOrThrow [directory, ".complete"])) seen := by
  refine fun seen' _ => ⟨.quiet fun _ => id, ?_⟩
  rintro (found : Option Bool) seen'' hsights
  cases found with
  | none => trivial
  | some found =>
      intro seen₃ hsees hfound
      refine hsees directory (hsights directory (.inr ⟨rfl, ?_⟩))
      exact congrArg some hfound

theorem isCandidate_searches : SearchesFor
    (fun candidate seen => candidate = true → seen directory)
    (isCandidate config directory) seen := by
  have htrivial : ∀ {β : Type} {p : Transfer β} {seen : Text → Prop}, Tends [] p →
      SearchesFor (fun _ _ => True) p seen := fun h =>
    searchesFor_of_tends (fun _ _ _ _ => trivial) h trivial
  have hno : ∀ {seen : Text → Prop}, SearchesFor
      (fun candidate seen => candidate = true → seen directory)
      (pure false : Transfer Bool) seen := fun _ _ hfalse => nomatch hfalse
  have hexists : ∀ path, Tends [] (files (existsOrThrow path)) := fun path =>
    tends_of_looking (files_uses (existsOrThrow_looking path))
  refine Prog.Safe.bind Sees.refl ((htrivial (leaseActive_tends config directory)).mono
    fun leased _ _ => ?_)
  cases leased with
  | true => exact hno
  | false =>
      refine Prog.Safe.bind Sees.refl ((htrivial (hexists _)).mono
        fun uploaded _ _ => ?_)
      cases uploaded with
      | true => exact hno
      | false =>
          refine Prog.Safe.bind Sees.refl (completeExists_searches.mono
            fun complete seen' hcomplete => ?_)
          cases complete with
          | false => exact hno
          | true =>
              have hkept : ∀ {β : Type} {p : Transfer β} {seen : Text → Prop},
                  Tends [] p → seen directory →
                  SearchesFor (fun _ seen => seen directory) p seen := fun h =>
                searchesFor_of_tends (fun _ _ hseen hsees => hsees directory hseen) h
              refine Prog.Safe.bind Sees.refl ((hkept (hexists _)
                (hcomplete rfl)).mono fun failed seen'' hseen => ?_)
              cases failed with
              | false => exact fun _ hsees _ => hsees directory hseen
              | true =>
                  change SearchesFor _ (failureExpired config directory) seen''
                  refine (hkept (tends_of_looking failureExpired_looking)
                    hseen).mono ?_
                  exact fun _ _ h _ => h

theorem candidatesAmong_searches : ∀ (directories : List Text) (seen : Text → Prop),
    Searches directories (candidatesAmong config directories) seen
  | [], _ => fun _ _ => nofun
  | directory :: rest, seen => by
      refine Prog.Safe.bind Sees.refl (isCandidate_searches.mono
        fun candidate seen₁ hcandidate => ?_)
      have hframed := (candidatesAmong_searches rest seen₁).frame
        (fun _ _ h hsees hyes => hsees directory (h hyes))
        (fun _ _ _ _ _ h hsights hyes => hsights directory (.inl (h hyes))) hcandidate
      refine Prog.Safe.bind Sees.refl (hframed.mono fun candidates seen₂ h => ?_)
      intro seen₃ hsees other hother
      have hrest : ∀ other ∈ candidates, other ∈ directory :: rest ∧ seen₃ other :=
        fun other hmem => ⟨List.mem_cons_of_mem _ (h.1 other hmem).1,
          hsees other (h.1 other hmem).2⟩
      cases candidate with
      | false => exact hrest other hother
      | true =>
          rcases List.mem_cons.mp hother with rfl | hmem
          · exact ⟨List.mem_cons_self, hsees other (h.2 rfl)⟩
          · exact hrest other hmem

end Search

/-! ### An upload -/

theorem uploadDirectory_tends : Tends [directory] (uploadDirectory config directory) := by
  have hsends : ∀ {α : Type} {p : Transfer α}, Sends directory p →
      Tends [directory] p := fun h =>
    Prog.uses_mono (fun _ h => h.mono fun _ => tending_of_sending) h
  have hwrites : ∀ {name : Text} (content : Bytes), (".upload" : Text) <+: name →
      (EventState.writeAtomically [directory, name] content).uses
        (Tending [directory]) := fun content hname =>
    Prog.uses_mono (fun _ => .replaceOp hname)
      (EventState.writeAtomically_uses _ content)
  have hdrop : Tends [directory] (files (dropLease directory)) :=
    ⟨.remove (by decide), fun _ => trivial⟩
  have hacquire : Tends [directory] (files (acquireLease config directory)) := by
    refine files_uses (Prog.uses_bind (Prog.uses_mono
      (fun _ hop => tending_of_looking hop.looking)
        (leaseActive_uses config directory)) fun active => ?_)
    cases active with
    | true => trivial
    | false => exact Prog.uses_call_bind (.quiet fun _ => id) fun now =>
        hwrites _ (by decide)
  refine Prog.uses_bind hacquire fun acquired => ?_
  cases acquired with
  | false => trivial
  | true =>
      refine Prog.uses_bind (hsends transferDirectory_sends) fun transferred => ?_
      cases transferred with
      | false => exact Prog.uses_bind hdrop fun _ => trivial
      | true =>
          refine Prog.uses_bind (hsends (collectFiles_sends directory))
            fun collected => ?_
          refine Prog.uses_bind (files_uses (hwrites _ (by decide))) fun written => ?_
          exact Prog.uses_bind hdrop fun _ => trivial

theorem markFailed_tends (attempts : Nat) :
    Tends [directory] (markFailed directory attempts) :=
  Prog.uses_mono (fun _ h => h.mono fun _ => .replaceOp (by decide))
    (markFailed_uses attempts)

end Programs

end DataCache.Recorder
