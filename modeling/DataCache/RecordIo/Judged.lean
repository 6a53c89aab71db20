import DataCache.RecordIo.Verify

/-!
# What the verifier says of any directory

The loop of the verifier comes down to one judgement for each entry that is
selected.  Its report is ok exactly if nothing at all is wrong with these.
-/

namespace DataCache.RecordIo

open DataCache.Foundation DataCache.Capture DataCache.Storage

section Judged

variable {runtime : VerifyRuntime} {disk : FileSystem} {directory : Text}
  {options : VerifyOptions} {entry : ManifestEntry} {entries : List ManifestEntry}
  {report report' : VerificationReport}

/-- The problem with an entry, if any; `none` when a message has a negative stamp. -/
def judge (runtime : VerifyRuntime) (disk : FileSystem) (directory : Text)
    (entry : ManifestEntry) : Option (Option Bytes) :=
  match loadRecordBytes runtime.zstd disk directory entry with
  | .error error => some (some error)
  | .ok bytes =>
      if bytes.isEmpty then some (some (ascii "record is empty"))
      else checkRecord runtime entry bytes

/-- The entry can be loaded, is not empty and says what its record says. -/
def Sound (runtime : VerifyRuntime) (disk : FileSystem) (directory : Text)
    (entry : ManifestEntry) : Prop :=
  judge runtime disk directory entry = some none

/-- The report after an entry that has been judged. -/
def VerificationReport.judged (report : VerificationReport) (disk : FileSystem)
    (directory : Text) (entry : ManifestEntry) : Option Bytes → VerificationReport
  | some problem => { report with
      totalEntries := report.totalEntries + 1
      failedEntries := report.failedEntries + 1
      problems := report.problems ++ [entryLabel entry ++ ascii ": " ++ problem] }
  | none => { report with
      totalEntries := report.totalEntries + 1
      verifiedEntries := report.verifiedEntries + 1
      warnings := report.warnings ++ copyWarnings disk directory entry }

/-- What the verifier still looks at, once some entries have been counted. -/
def selectedAfter (options : VerifyOptions) (counted : Nat)
    (entries : List ManifestEntry) : List ManifestEntry :=
  if options.limit = 0 then entries.filter (isSelected options)
  else (entries.filter (isSelected options)).take (options.limit - counted)

/-- The entries of the wanted sensor, as many as the limit allows. -/
def selected (options : VerifyOptions) (entries : List ManifestEntry) :
    List ManifestEntry :=
  selectedAfter options 0 entries

/-- What a report gains from entries that have all been judged. -/
structure Adds (runtime : VerifyRuntime) (disk : FileSystem) (directory : Text)
    (entries : List ManifestEntry) (report report' : VerificationReport) : Prop where
  total : report'.totalEntries = report.totalEntries + entries.length
  verified : report'.verifiedEntries = report.verifiedEntries +
    entries.countP fun entry => judge runtime disk directory entry == some none
  failed : report'.failedEntries = report.failedEntries +
    entries.countP fun entry => judge runtime disk directory entry != some none
  problems : report'.problems = [] ↔
    report.problems = [] ∧ ∀ entry ∈ entries, Sound runtime disk directory entry

end Judged

end DataCache.RecordIo
