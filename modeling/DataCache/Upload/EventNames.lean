import DataCache.Capture.HandOff
import DataCache.Storage.Timestamps
import DataCache.Trigger.Router
import DataCache.Upload.Worker

/-!
# Event names across the components

The monitor makes the name of an event directory out of the event, the number of
the capture and the time.  The receiver takes it as the name of an upload, and
the retention sweep reads the time back from it.
-/

namespace DataCache.Upload

open DataCache.Foundation DataCache.Storage
open DataCache.Capture (eventDirectoryName)
open DataCache.Receiver (isEventNameChar matchesEventName maxEventName
  validateEventName Reply)
open DataCache.Trigger (validEventName)

/-! ## Transfer ids -/

def IsUInt64 (n : Nat) : Prop := n < 2 ^ 64

def NothingStored (content : Option Bytes) : Prop :=
  firstLine (content.getD []) = []

/-- No id is stored, and the clock and the counter are 64-bit numbers. -/
def Unstored : Prog.Effect UploadOp.Res Unit
  | _, .fs (.readFile _), content, _ => NothingStored content
  | _, .fs .systemNow, now, _ => IsInt64 now
  | _, .takeId, id, _ => IsUInt64 id
  | _, _, _, _ => True

/-- An id that `transferIdFor` makes up. -/
def Generates (directory transferId : Text) : Prop :=
  transferId ≠ [] ∧
    Prog.Exec Unstored () (transferIdFor directory) () (.ret transferId)

theorem transferIdFor_generated (directory : Text) :
    Prog.wp Unstored (fun _ => True) (fun transferId _ => transferId = [] ∨
      ∃ now id, IsInt64 now ∧ IsUInt64 id ∧
        transferId = showInt now ++ ("-" : Text) ++ showNat id)
      (fun _ _ => True) (transferIdFor directory) () := by
  intro content _ hcontent
  refine ⟨trivial, ?_⟩
  have hempty : (!(firstLine (content.getD [])).isEmpty) = false := by
    rw [show firstLine (content.getD []) = [] from hcontent]
    rfl
  change Prog.wp _ _ _ _ (ite _ _ _) _
  rw [if_neg (by rw [hempty]; exact Bool.false_ne_true)]
  intro now _ hnow
  refine ⟨trivial, fun id _ hid => ⟨trivial, ?_⟩⟩
  have hwrite : ∀ (p : Transfer Bool), Prog.wp Unstored (fun _ => True)
      (fun _ _ => True) (fun _ _ => True) p () := fun p =>
    Prog.wp_of_uses (fun _ _ _ _ _ _ _ => trivial) (Prog.uses_true p) trivial
  change Prog.wp _ _ _ _ ((files (EventState.writeAtomically _ _)).bind _) _
  refine Prog.wp_bind (Prog.wp_mono (fun _ h => h) ?_ (fun _ _ h => h) (hwrite _))
  intro written _ _
  cases written with
  | false => exact .inl rfl
  | true => exact .inr ⟨now, id, hnow, hid, rfl⟩

theorem length_showNat_uint64 {n : Nat} (h : IsUInt64 n) :
    (showNat n).length ≤ 20 :=
  length_showNat_le (by omega) (lt_trans h (by norm_num))

theorem length_showInt_int64 {n : Int} (h : IsInt64 n) :
    (showInt n).length ≤ 20 := by
  obtain ⟨hlow, hhigh⟩ := h
  cases n with
  | ofNat n =>
      have hsmall : (n : Int) < 2 ^ 63 := hhigh
      exact length_showNat_uint64 (show n < 2 ^ 64 by omega)
  | negSucc n =>
      have hdigits : (showNat (n + 1)).length ≤ 19 :=
        length_showNat_le (by omega) (by omega)
      rw [showInt, List.length_cons]
      omega

theorem Generates.length_le {directory transferId : Text}
    (h : Generates directory transferId) : transferId.length ≤ 41 := by
  obtain ⟨hne, hexec⟩ := h
  obtain ⟨-, hpost⟩ := Prog.wp_exec hexec trivial
    (transferIdFor_generated directory)
  obtain ⟨now, id, hnow, hid, rfl⟩ := hpost.resolve_left hne
  have hnow := length_showInt_int64 hnow
  have hcount := length_showNat_uint64 hid
  simp only [List.length_append]
  change _ + 1 + _ ≤ 41
  omega

/-! ## Directory names -/

theorem eventDirectoryName_eq (eventName : Text) (captureId time : Nat) :
    eventDirectoryName eventName captureId time =
      (eventName ++ '_' :: showNat captureId) ++ '_' :: showNat time := by
  simp [eventDirectoryName, showInt]

theorem isEventNameChar_of_digit {c : Char} (h : c.isDigit = true) :
    isEventNameChar c = true := by
  rw [isEventNameChar, Char.isAlphanum, h]
  simp

theorem isEventNameChar_showNat {n : Nat} {c : Char} (h : c ∈ showNat n) :
    isEventNameChar c = true :=
  isEventNameChar_of_digit (isDigit_of_mem_showNat h)

/-- A valid event name fits the receiver's pattern, with room for the numbers. -/
theorem validEventName_eq_true {eventName : Text}
    (h : validEventName eventName = true) : ∃ first rest,
      eventName = first :: rest ∧ first.isAlphanum = true ∧
      eventName.length ≤ 96 ∧ ∀ c ∈ rest, isEventNameChar c = true := by
  unfold validEventName at h
  split at h
  · cases h
  next first rest =>
    simp only [Bool.and_eq_true, decide_eq_true_eq, List.all_cons,
      List.all_eq_true] at h
    obtain ⟨⟨hlength, hfirst⟩, -, hrest⟩ := h
    refine ⟨first, rest, rfl, hfirst, hlength, fun c hc => ?_⟩
    have hchar := hrest c hc
    simp only [isEventNameChar, Bool.or_eq_true] at hchar ⊢
    tauto

/-- Appending name characters to an accepted start keeps it accepted. -/
theorem validateEventName_append {first : Char} {rest tail : Text}
    (hfirst : first.isAlphanum = true)
    (hrest : ∀ c ∈ rest ++ tail, isEventNameChar c = true)
    (hlength : (first :: (rest ++ tail)).length ≤ maxEventName) :
    validateEventName (first :: (rest ++ tail)) =
      some (first :: (rest ++ tail)) := by
  have hdots : ([".", ".."] : List Text).contains (first :: (rest ++ tail)) =
      false := by
    have hdot : first ≠ '.' := fun heq => by
      rw [heq] at hfirst
      exact absurd hfirst (by decide)
    simp [hdot]
  unfold validateEventName
  rw [if_pos]
  rw [hdots, matchesEventName, hfirst, List.all_eq_true.mpr hrest,
    decide_eq_true hlength]
  rfl

theorem length_eventDirectoryName_le {eventName : Text} {captureId time : Nat}
    (hname : eventName.length ≤ 96) (hid : captureId < 2 ^ 64)
    (htime : time < 2 ^ 63) :
    (eventDirectoryName eventName captureId time).length ≤ 137 := by
  have hcount := length_showNat_uint64 hid
  have hdigits : (showNat time).length ≤ 19 :=
    length_showNat_le (by omega) (by omega)
  rw [eventDirectoryName_eq]
  simp only [List.length_append, List.length_cons]
  omega

theorem validateEventName_eventDirectoryName {eventName : Text}
    {captureId time : Nat} (hname : validEventName eventName = true)
    (hid : captureId < 2 ^ 64) (htime : time < 2 ^ 63) :
    validateEventName (eventDirectoryName eventName captureId time) =
      some (eventDirectoryName eventName captureId time) := by
  obtain ⟨first, rest, rfl, hfirst, hlength, hrest⟩ :=
    validEventName_eq_true hname
  have hshort := length_eventDirectoryName_le hlength hid htime
  have htail : ∀ c ∈ '_' :: showNat captureId ++ '_' :: showNat time,
      isEventNameChar c = true := by
    intro c hc
    rcases List.mem_append.mp hc with hc | hc <;>
      rcases List.mem_cons.mp hc with rfl | hc
    · rfl
    · exact isEventNameChar_showNat hc
    · rfl
    · exact isEventNameChar_showNat hc
  have heq : eventDirectoryName (first :: rest) captureId time = first ::
      (rest ++ ('_' :: showNat captureId ++ '_' :: showNat time)) := by
    rw [eventDirectoryName_eq, List.append_assoc, List.cons_append]
  rw [heq] at hshort ⊢
  refine validateEventName_append hfirst (fun c hc => ?_)
    (hshort.trans (by decide))
  exact (List.mem_append.mp hc).elim (hrest c) (htail c)

/-- The check of `begin` that both names together are short enough. -/
theorem begin_not_too_long {event transferId : Text}
    (h : event.length + transferId.length + "...part".length ≤ 240)
    (node : Receiver.Node) (files bytes : Nat) (now : Receiver.Time) :
    (Receiver.begin node event transferId files bytes now).1 ≠
      .answer false "event and transfer_id are too long" 0 := by
  unfold Receiver.begin
  split
  · simp
  split
  · simp
  split
  next hlong => exact absurd h (by omega)
  split
  · simp
  split <;> simp

/-! ## The components agree -/

theorem eventDirectoryName_agrees {eventName : Text} {captureId : Nat}
    {systemNowNs : Int} (hname : validEventName eventName = true)
    (hid : captureId < 2 ^ 64) (hlow : 10 ^ 8 ≤ systemNowNs)
    (hhigh : systemNowNs < 2 ^ 63) :
    validateEventName (eventDirectoryName eventName captureId systemNowNs) =
        some (eventDirectoryName eventName captureId systemNowNs) ∧
      (∀ directory transferId, Generates directory transferId →
        ∀ node files bytes now,
          (Receiver.begin node
            (eventDirectoryName eventName captureId systemNowNs) transferId
            files bytes now).1 ≠
          .answer false "event and transfer_id are too long" 0) ∧
      parseEventTimestamp (eventDirectoryName eventName captureId systemNowNs) =
        systemNowNs := by
  obtain ⟨time, rfl⟩ := Int.eq_ofNat_of_zero_le
    (show 0 ≤ systemNowNs from le_trans (by norm_num) hlow)
  have htime : time < 2 ^ 63 := by omega
  obtain ⟨first, rest, hcons, -, hlength, -⟩ := validEventName_eq_true hname
  refine ⟨validateEventName_eventDirectoryName hname hid htime, ?_, ?_⟩
  · intro directory transferId hgenerates node files bytes now
    have hdirectory := length_eventDirectoryName_le hlength hid htime
    have htransfer := hgenerates.length_le
    refine begin_not_too_long ?_ node files bytes now
    change _ + _ + 7 ≤ 240
    omega
  · rw [eventDirectoryName_eq]
    exact parseEventTimestamp_append (by simp) (by omega) htime

theorem eventDirectoryName_agrees_dotted :
    validEventName "a_1.-9" = true ∧
      parseEventTimestamp (eventDirectoryName "a_1.-9" 7 1700000000000000000) =
        1700000000000000000 :=
  have hname : validEventName "a_1.-9" = true := by decide
  ⟨hname, (eventDirectoryName_agrees hname (by norm_num) (by norm_num)
    (by norm_num)).2.2⟩

end DataCache.Upload
