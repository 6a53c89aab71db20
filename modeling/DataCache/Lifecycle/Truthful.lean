import DataCache.Lifecycle.Insight

/-!
# A failed recording stays failed

The verdict is settled once the program that writes it can no longer install
`.complete`.  A poll that sees `.failed` sees a settled verdict; the timeout
does not wait for one.
-/

namespace DataCache.Lifecycle

open DataCache.Foundation DataCache.Storage DataCache.EventState
open DataCache.Capture (CaptureResult Clock Creating Job SensorData Settings
  System nanosPerSecond)
open DataCache.Trigger (DataCacheNode EventLifecycle EventStatus Readings
  TriggerRequest)

/-! ## Operations that write no verdict -/

/-- A well-placed operation that does not put this marker there. -/
def Spares (directory : Text) (marker : Marker) (op : FsOp) : Prop :=
  Placed directory op ∧ installs directory marker op = false

theorem Spares.present {codec : Codec} {directory : Text} {marker : Marker}
    {s s' : Store} {op : FsOp} {r : op.Res} (hspares : Spares directory marker op)
    (h : Effect codec s op r s')
    (hafter : (s'.disk.node? (marker.path directory)).isSome = true) :
    (s.disk.node? (marker.path directory)).isSome = true := by
  by_cases hremoves : removes directory marker op = true
  · cases op with
    | remove path =>
        obtain rfl : path = marker.path directory := by
          simpa [removes] using hremoves
        rcases h with ⟨-, hdir, rfl⟩ | ⟨-, rfl⟩
        · rw [Store.setDisk, Disk.node?_remove_self hdir] at hafter
          cases hafter
        · exact hafter
    | _ => cases hremoves
  · rw [Bool.not_eq_true] at hremoves
    rwa [(h.sameAt (hspares.1.markers_untouched marker hspares.2
      hremoves)).node] at hafter

theorem Spares.disturbed {codec : Codec} {directory : Text} {marker : Marker}
    {s s' : Store} {op : FsOp} {r : op.Res} (hspares : Spares directory marker op)
    (hmarker : marker ∈ [Marker.complete, Marker.failed])
    (h : Disturbed codec directory s op r s')
    (hafter : (s'.disk.node? (marker.path directory)).isSome = true) :
    (s.disk.node? (marker.path directory)).isSome = true := by
  obtain ⟨before, during, hbefore, heffect, hduring⟩ := h
  exact hbefore marker hmarker
    (hspares.present heffect (hduring marker hmarker hafter))

theorem spares_replaceOp {directory other : Text} {target marker : Marker}
    (hne : marker.path directory ≠ target.path other) {op : FsOp}
    (h : ReplaceOp (target.path other) op) :
    Spares directory marker op := by
  have htemp : ∀ marker' : Marker,
      tempPath (target.path other) ≠ marker'.path directory :=
    fun marker' => tempPath_ne_path target marker' other directory
  cases op with
  | createDirectories path =>
      obtain rfl : path = [other] := h
      exact ⟨Nat.le_refl 1, rfl⟩
  | openTrunc path =>
      obtain rfl : path = tempPath (target.path other) := h
      exact ⟨⟨rfl, htemp⟩, rfl⟩
  | append path data =>
      obtain rfl : path = tempPath (target.path other) := h
      exact ⟨⟨rfl, htemp⟩, rfl⟩
  | syncFile path =>
      obtain rfl : path = tempPath (target.path other) := h
      exact ⟨⟨rfl, htemp⟩, rfl⟩
  | rename source path =>
      obtain ⟨rfl, rfl⟩ := h
      exact ⟨⟨rfl, rfl, htemp⟩, decide_eq_false (Ne.symm hne)⟩
  | remove path =>
      refine ⟨?_, rfl⟩
      rcases h with rfl | rfl <;> rfl
  | syncDirectory path => exact ⟨trivial, rfl⟩
  | _ => exact absurd h id

theorem path_ne (marker target : Marker) (directory : Text)
    (hne : marker ≠ target) : marker.path directory ≠ target.path directory :=
  fun heq => hne (Marker.path_inj heq).1

theorem writeMarker_spares {directory other : Text} {target marker : Marker}
    (hne : marker.path directory ≠ target.path other) (content : Bytes) :
    (EventState.writeAtomically (target.path other) content).uses
      (Spares directory marker) :=
  Prog.uses_mono (fun _ => spares_replaceOp hne)
    (EventState.writeAtomically_uses _ content)

theorem spares_remove (directory other : Text) (target marker : Marker) :
    Spares directory marker (.remove (target.path other)) :=
  ⟨rfl, rfl⟩

theorem begin_spares {directory other : Text} {marker : Marker}
    (hne : marker.path directory ≠ Marker.path .pending other)
    (eventName : Text) (acceptedAtNs : Int) :
    (begin other eventName acceptedAtNs).uses (Spares directory marker) :=
  writeMarker_spares hne _

theorem complete_spares (directory : Text) (recordCount : Nat) :
    (complete directory recordCount).uses (Spares directory .failed) := by
  refine Prog.uses_bind (writeMarker_spares
    (path_ne .failed .complete directory nofun) _) ?_
  rintro (_ | _)
  · trivial
  · exact ⟨spares_remove directory directory .pending .failed, fun _ =>
      ⟨spares_remove directory directory .failed .failed, fun _ =>
        ⟨⟨trivial, rfl⟩, fun _ => trivial⟩⟩⟩

theorem fail_spares {directory other : Text} {marker : Marker}
    (hne : marker.path directory ≠ Marker.path .failed other) (reason : Text) :
    (fail other reason).uses (Spares directory marker) := by
  refine Prog.uses_call_bind ⟨trivial, rfl⟩ fun now => ?_
  refine Prog.uses_bind (writeMarker_spares hne _) ?_
  rintro (_ | _)
  · trivial
  · exact ⟨spares_remove directory other .pending marker, fun _ =>
      ⟨spares_remove directory other .complete marker, fun _ => trivial⟩⟩

/-! ## Settled verdicts -/

def Marking.Settled (directory : Text) : Marking → Prop
  | .beginning _ => False
  | .judging rest => rest.uses (Spares directory .complete)
  | .judged => True

/-- No `.failed` was written, and none will be while `.complete` can come. -/
def Marking.Open (directory : Text) : Marking → Prop
  | .beginning rest => rest.uses (Spares directory .failed)
  | .judging rest => ∃ (first : Action Bool) (next : Bool → Action Bool),
      rest = first.bind next ∧ first.uses (Spares directory .failed) ∧
        ∀ completed, (next completed).uses (Spares directory .complete)
  | .judged => False

/-- Either the verdict is settled, or there is no `.failed`. -/
def VerdictOk (directory : Text) (s : State) : Prop :=
  s.marking.Settled directory ∨
    s.marking.Open directory ∧ s.present directory .failed = false

theorem settled_or_open {directory : Text} {judgement : Action Bool}
    (h : Judgement directory judgement) :
    (Marking.judging judgement).Settled directory ∨
      (Marking.judging judgement).Open directory := by
  cases h with
  | fail reason => exact .inl (fail_spares (path_ne .complete _ directory nofun) reason)
  | complete recordCount reason =>
      refine .inr ⟨complete directory recordCount, _, rfl,
        complete_spares directory recordCount, ?_⟩
      rintro (_ | _)
      · exact Prog.uses_bind (fail_spares (path_ne .complete _ directory nofun) reason)
          fun _ => trivial
      · trivial

section Threads

variable {codec : Codec} {directory : Text} {s s' : State}

theorem Threads.settled (h : Threads codec directory s s')
    (hsettled : s.marking.Settled directory) : s'.marking.Settled directory := by
  cases h with
  | beginning hmarking heffect => rw [hmarking] at hsettled; exact hsettled.elim
  | refused hmarking => trivial
  | judge hmarking hjudgement hfinal =>
      rw [hmarking] at hsettled
      exact hsettled.elim
  | judging hmarking heffect =>
      rw [hmarking] at hsettled
      exact hsettled.2 _
  | judged hmarking => trivial
  | elsewhere hstore => exact hsettled
  | consume count => exact hsettled

theorem absent_of_absent {marker : Marker} (habsent : s.present directory marker = false)
    (h : s'.present directory marker = true → s.present directory marker = true) :
    s'.present directory marker = false := by
  rw [← Bool.not_eq_true] at habsent ⊢
  exact fun hafter => habsent (h hafter)

theorem Threads.verdictOk (h : Threads codec directory s s')
    (hok : VerdictOk directory s) : VerdictOk directory s' := by
  rcases hok with hsettled | ⟨hopen, habsent⟩
  · exact .inl (h.settled hsettled)
  cases h with
  | beginning hmarking heffect =>
      rw [hmarking] at hopen
      refine .inr ⟨hopen.2 _, absent_of_absent habsent ?_⟩
      exact hopen.1.disturbed (by decide) heffect
  | refused hmarking => exact .inl trivial
  | judge hmarking hjudgement hfinal =>
      exact (settled_or_open hjudgement).imp id fun hopen => ⟨hopen, habsent⟩
  | judging hmarking heffect =>
      rw [hmarking] at hopen
      obtain ⟨first, next, hrest, hfirst, hnext⟩ := hopen
      cases first with
      | ret completed =>
          have hsettled := hnext completed
          rw [← show _ = next completed from hrest] at hsettled
          exact .inl (hsettled.2 _)
      | raise error => cases hrest
      | call op rest =>
          cases hrest
          refine .inr ⟨⟨_, next, rfl, hfirst.2 _, hnext⟩,
            absent_of_absent habsent ?_⟩
          exact hfirst.1.disturbed (by decide) heffect
  | judged hmarking => exact .inl trivial
  | elsewhere hstore =>
      exact .inr ⟨hopen, absent_of_absent habsent (hstore .failed (by decide))⟩
  | consume count => exact .inr ⟨hopen, habsent⟩

end Threads

/-! ## The invariant -/

/-- The node has published that the recording in the directory failed. -/
def RecordFailed (directory : Text) (s : State) : Prop :=
  ∃ status ∈ s.node.published, status.status = .recordFailed ∧
    status.recordDirectory = directory

/-- There was a reason to call the recording failed. -/
def State.Doomed (directory : Text) (s : State) : Prop :=
  s.overdue = true ∨ s.marking.Settled directory

structure State.Ok (directory : Text) (s : State) : Prop where
  verdict : VerdictOk directory s
  founded : RecordFailed directory s → s.Doomed directory
  followed : Followed directory s.acceptances s.node.eventLifecycles

/-- All that is left of a poll is founded on what it has seen. -/
def PollingOk (directory : Text) (s : State)
    (rest : Poll (Dict Text EventLifecycle)) : Prop :=
  ∃ k : Insight, k.now = s.clock ∧ (k.reason = true → s.Doomed directory) ∧
    Founded directory s.acceptances rest k fun lifecycles _ =>
      Followed directory s.acceptances lifecycles

structure World.Ok (directory : Text) (w : World) : Prop where
  state : w.state.Ok directory
  polling : ∀ rest ∈ w.polling, PollingOk directory w.state rest

section Invariant

variable {codec : Codec} {directory : Text} {s s' : State}

theorem Threads.same (h : Threads codec directory s s') :
    s'.node = s.node ∧ s'.clock = s.clock ∧ s'.acceptances = s.acceptances ∧
      s'.overdue = s.overdue := by
  cases h <;> exact ⟨rfl, rfl, rfl, rfl⟩

theorem Threads.doomed (h : Threads codec directory s s')
    (hdoomed : s.Doomed directory) : s'.Doomed directory :=
  hdoomed.imp (fun hoverdue => h.same.2.2.2.trans hoverdue) h.settled

theorem Threads.ok (h : Threads codec directory s s')
    (hok : s.Ok directory) : s'.Ok directory := by
  obtain ⟨hnode, -, hacceptances, -⟩ := h.same
  refine ⟨h.verdictOk hok.verdict, fun hfailed => h.doomed (hok.founded ?_), ?_⟩
  · rwa [RecordFailed, hnode] at hfailed
  · rw [hnode, hacceptances]
    exact hok.followed

theorem Threads.pollingOk (h : Threads codec directory s s')
    {rest : Poll (Dict Text EventLifecycle)} (hok : PollingOk directory s rest) :
    PollingOk directory s' rest := by
  obtain ⟨-, hclock, hacceptances, -⟩ := h.same
  obtain ⟨k, hnow, hreason, hfounded⟩ := hok
  refine ⟨k, hnow.trans hclock.symm, fun hseen => h.doomed (hreason hseen), ?_⟩
  rw [hacceptances]
  exact hfounded

/-- What a poll sees is a reason. -/
theorem Performs.doomed {op : PollOp} {r : op.Res}
    (h : Performs codec directory s op r s') (hok : s.Ok directory) :
    (s.Doomed directory → s'.Doomed directory) ∧
      (reveals directory (isLate s.acceptances s.clock) op r = true →
        s'.Doomed directory) := by
  cases op with
  | steadyNow =>
      obtain ⟨-, rfl⟩ := h
      exact ⟨id, nofun⟩
  | publish update =>
      cases h
      exact ⟨id, nofun⟩
  | «exists» target name =>
      obtain ⟨⟨answer, heffect, hfound⟩, rfl⟩ := h
      refine ⟨fun hdoomed => hdoomed.imp (fun hoverdue => ?_) id,
        fun hreveals => ?_⟩
      · exact Bool.or_eq_true_iff.mpr (.inl hoverdue)
      · obtain ⟨rfl, ⟨rfl, rfl⟩ | ⟨rfl, rfl, hlate⟩⟩ :=
          reveals_exists.mp hreveals
        · refine .inr (hok.verdict.resolve_right ?_)
          rintro ⟨-, habsent⟩
          rcases heffect.2 with rfl | rfl
          · have hexists : s.store.disk.pathExists (Marker.failed.path target) =
                s.present target .failed :=
              Disk.pathExists_eq (List.cons_ne_nil _ _)
            exact absurd (hfound.trans (hexists.trans habsent)) nofun
          · cases hfound
        · refine .inl ?_
          simp [hlate]

theorem Performs.ok {op : PollOp} {r : op.Res}
    (h : Performs codec directory s op r s') (hok : s.Ok directory)
    (haccuses : accuses directory op = true → s.Doomed directory) :
    s'.Ok directory := by
  cases op with
  | steadyNow =>
      obtain ⟨-, rfl⟩ := h
      exact ⟨hok.verdict, hok.founded, hok.followed⟩
  | «exists» target name =>
      have hdoomed := (h.doomed hok).1
      obtain ⟨-, rfl⟩ := h
      exact ⟨hok.verdict, fun hfailed => hdoomed (hok.founded hfailed),
        hok.followed⟩
  | publish update =>
      cases h
      refine ⟨hok.verdict, ?_, hok.followed⟩
      rintro ⟨status, hstatus, hkind, hdirectory⟩
      rcases List.mem_append.mp hstatus with hold | hnew
      · exact hok.founded ⟨status, hold, hkind, hdirectory⟩
      · cases List.mem_singleton.mp hnew
        exact haccuses (decide_eq_true ⟨hkind, hdirectory⟩)

theorem Performs.same {op : PollOp} {r : op.Res}
    (h : Performs codec directory s op r s') :
    s'.acceptances = s.acceptances ∧ s'.store = s.store ∧
      s'.clock = readClock s.clock op r := by
  cases op with
  | steadyNow =>
      obtain ⟨-, rfl⟩ := h
      exact ⟨rfl, rfl, rfl⟩
  | «exists» target name =>
      obtain ⟨-, rfl⟩ := h
      exact ⟨rfl, rfl, rfl⟩
  | publish update =>
      cases h
      exact ⟨rfl, rfl, rfl⟩

theorem PollingOk.performs {op : PollOp}
    {next : op.Res → Poll (Dict Text EventLifecycle)} {r : op.Res}
    (hpolling : PollingOk directory s (.call op next))
    (h : Performs codec directory s op r s') (hok : s.Ok directory) :
    s'.Ok directory ∧ PollingOk directory s' (next r) := by
  obtain ⟨hacceptances, -, hclock⟩ := h.same
  obtain ⟨k, hnow, hreason, hfounded⟩ := hpolling
  obtain ⟨hunfounded, hnext⟩ := hfounded r _ rfl
  obtain ⟨hkeeps, hreveals⟩ := h.doomed hok
  refine ⟨h.ok hok fun haccuses => hreason ?_,
    k.after directory s.acceptances op r, ?_, fun hseen => ?_, ?_⟩
  · rw [Insight.after, haccuses, Bool.true_and, Bool.or_eq_false_iff,
      Bool.not_eq_false'] at hunfounded
    exact hunfounded.2
  · rw [hclock, ← hnow]
    rfl
  · rcases Bool.or_eq_true_iff.mp hseen with hold | hnew
    · exact hkeeps (hreason hold)
    · rw [hnow] at hnew
      exact hreveals hnew
  · rw [hacceptances]
    exact hnext

theorem State.Ok.serve (hok : s.Ok directory) (request : TriggerRequest)
    (readings : Readings) (result : CaptureResult)
    (after : System × List Text) :
    (s.serve directory request readings result after).Ok directory := by
  refine ⟨hok.verdict, ?_, fun triggerId lifecycle hget hdirectory => ?_⟩
  · rintro ⟨status, hstatus, hkind, hdirectory⟩
    rcases DataCacheNode.handleTrigger_publishes hstatus with hold | hnew
    · exact hok.founded ⟨status, hold, hkind, hdirectory⟩
    · rw [hkind] at hnew
      exact hnew.elim nofun nofun
  · rcases DataCacheNode.handleTrigger_follows hget with
      hold | ⟨hcaptured, haccepted, hown, hacceptedAt⟩
    · have hmem := hok.followed triggerId lifecycle hold hdirectory
      simp only [State.serve]
      split
      · exact List.mem_append_left _ hmem
      · exact hmem
    · have hany : ((s.node.handleTrigger request readings
          result).captured.any fun capture =>
            capture.accepted && decide (capture.directory = directory)) = true := by
        rw [hcaptured, Option.any_some, haccepted, Bool.true_and,
          decide_eq_true_eq]
        exact hown.symm.trans hdirectory
      simp only [State.serve, hany, if_true, hacceptedAt]
      exact List.mem_append_right _ List.mem_cons_self

end Invariant

/-! ## Runs -/

section Runs

variable {settings : Settings} {codec : Codec} {directory : Text} {w w' : World}

theorem World.Ok.step (h : Step settings codec directory w w')
    (hok : w.Ok directory) : w'.Ok directory := by
  cases h with
  | threads h =>
      exact ⟨h.ok hok.state, fun rest hrest =>
        h.pollingOk (hok.polling rest hrest)⟩
  | serve request readings result after hclock hanswered hanswers hbegun =>
      exact ⟨hok.state.serve request readings result after, nofun⟩
  | frame data =>
      exact ⟨⟨hok.state.verdict, hok.state.founded, hok.state.followed⟩, nofun⟩
  | ledger pairIndex =>
      exact ⟨⟨hok.state.verdict, hok.state.founded, hok.state.followed⟩, nofun⟩
  | schedule clock hclock hexec =>
      exact ⟨⟨hok.state.verdict, hok.state.founded, hok.state.followed⟩, nofun⟩
  | startPoll order horder =>
      refine ⟨hok.state, fun rest hrest => ?_⟩
      cases hrest
      exact ⟨⟨_, false, false⟩, rfl, nofun,
        pollEventLifecycles_founded rfl hok.state.followed⟩
  | poll h =>
      obtain ⟨hstate, hpolling⟩ := (hok.polling _ rfl).performs h hok.state
      refine ⟨hstate, fun rest hrest => ?_⟩
      cases hrest
      exact hpolling
  | endPoll =>
      refine ⟨⟨hok.state.verdict, hok.state.founded, ?_⟩, nofun⟩
      obtain ⟨k, -, -, hfounded⟩ := hok.polling _ rfl
      exact hfounded.2

/-- Once a poll found the capture overdue, the step writes no `.complete`. -/
def OnTime (directory : Text) (w w' : World) : Prop :=
  w.state.overdue = true → w'.state.present directory .complete = true →
    w.state.present directory .complete = true

abbrev ReachesOnTime (settings : Settings) (codec : Codec) (directory : Text) :
    World → World → Prop :=
  Relation.ReflTransGen fun w w' =>
    Step settings codec directory w w' ∧ OnTime directory w w'

theorem Step.doomed (h : Step settings codec directory w w') (hok : w.Ok directory)
    (hdoomed : w.state.Doomed directory) : w'.state.Doomed directory := by
  cases h with
  | threads h => exact h.doomed hdoomed
  | poll h => exact (h.doomed hok.state).1 hdoomed
  | _ => exact hdoomed

theorem Starts.ok (h : Starts settings directory w) : w.Ok directory := by
  obtain ⟨⟨triggerDedupeTtl, uploadEnabled, uploadFailureAutoRetry, eventNames,
    hnode⟩, -, hfresh, ⟨eventName, acceptedAtNs, hmarking⟩, -, -, hpolling⟩ := h
  refine ⟨⟨.inr ⟨?_, hfresh .failed⟩, ?_, ?_⟩, ?_⟩
  · rw [hmarking]
    exact begin_spares (path_ne .failed _ directory nofun) eventName acceptedAtNs
  · rintro ⟨status, hstatus, -⟩
    rw [hnode] at hstatus
    cases hstatus
  · intro triggerId lifecycle hget
    rw [hnode] at hget
    cases hget
  · rw [hpolling]
    nofun

theorem ReachesOnTime.ok (h : ReachesOnTime settings codec directory w w')
    (hok : w.Ok directory) : w'.Ok directory := by
  induction h with
  | refl => exact hok
  | tail _ hstep ih => exact ih.step hstep.1

theorem Vanishing.refl (directory : Text) (s : Store) :
    Vanishing directory s s := fun _ _ => id

theorem exec_disturbed {p p' : Action Bool} {s s' : Store}
    (h : Prog.Exec (Effect codec) s p s' p') :
    Prog.Exec (Disturbed codec directory) s p s' p' :=
  h.mono fun s _ _ s' heffect =>
    ⟨s, s', .refl directory s, heffect, .refl directory s'⟩

theorem Reaches.beginning {s : State} {store store' : Store}
    {p p' : Action Bool} {polling : Option (Poll (Dict Text EventLifecycle))}
    (h : Prog.Exec (Disturbed codec directory) store p store' p') :
    Reaches settings codec directory
      ⟨{ s with store := store, marking := .beginning p }, polling⟩
      ⟨{ s with store := store', marking := .beginning p' }, polling⟩ := by
  induction h with
  | refl => exact .refl
  | step heffect _ ih => exact ih.head (.threads (.beginning rfl heffect))

theorem Reaches.judging {s : State} {store store' : Store}
    {p p' : Action Bool} {polling : Option (Poll (Dict Text EventLifecycle))}
    (h : Prog.Exec (Disturbed codec directory) store p store' p') :
    Reaches settings codec directory
      ⟨{ s with store := store, marking := .judging p }, polling⟩
      ⟨{ s with store := store', marking := .judging p' }, polling⟩ := by
  induction h with
  | refl => exact .refl
  | step heffect _ ih => exact ih.head (.threads (.judging rfl heffect))

theorem Reaches.polling {s s' : State}
    {p p' : Poll (Dict Text EventLifecycle)}
    (h : Prog.Exec (Performs codec directory) s p s' p') :
    Reaches settings codec directory ⟨s, some p⟩ ⟨s', some p'⟩ := by
  induction h with
  | refl => exact .refl
  | step heffect _ ih => exact ih.head (.poll heffect)

theorem Step.overdue (h : Step settings codec directory w w')
    (hoverdue : w.state.overdue = true) : w'.state.overdue = true := by
  cases h with
  | threads h => exact h.same.2.2.2.trans hoverdue
  | @poll s s' op next r h =>
      cases op with
      | steadyNow => obtain ⟨-, rfl⟩ := h; exact hoverdue
      | «exists» target name =>
          obtain ⟨-, rfl⟩ := h
          exact Bool.or_eq_true_iff.mpr (.inl hoverdue)
      | publish update => cases h; exact hoverdue
  | _ => exact hoverdue

theorem Reaches.judgement {s : State} {judgement rest : Action Bool}
    {store' : Store} (hmarking : s.marking = .beginning (.ret true))
    (hjudgement : Judgement directory judgement)
    (hfinal : ∀ recordCount reason,
      judgement = completeOrFail directory recordCount reason →
        FinalJobTaken directory s)
    (h : Prog.Exec (Effect codec) s.store judgement store' rest) :
    Reaches settings codec directory ⟨s, none⟩
      ⟨{ s with store := store', marking := .judging rest }, none⟩ :=
  (@Reaches.judging settings codec directory s _ _ _ _ none
    (exec_disturbed h)).head (.threads (.judge hmarking hjudgement hfinal))

theorem Reaches.polled {s s' : State} {lifecycles : Dict Text EventLifecycle}
    {order : List Text} (horder : order.Perm s.node.eventLifecycles.keys)
    (h : Prog.Exec (Performs codec directory) s
      (pollEventLifecycles s.node order) s' (.ret lifecycles)) :
    Reaches settings codec directory ⟨s, none⟩
      ⟨s'.endPoll lifecycles, none⟩ :=
  ((Reaches.polling h).head (.startPoll order horder)).tail .endPoll

end Runs

def cameraFrame (seconds : Int) : SensorData :=
  .camera (seconds * nanosPerSecond)
    (some ⟨seconds * nanosPerSecond, 1, 1, "mono8", 1, [0]⟩)

def brakeRequest : TriggerRequest := ⟨"brake", "x", "button"⟩

end DataCache.Lifecycle
