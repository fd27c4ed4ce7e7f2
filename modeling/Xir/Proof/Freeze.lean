import Xir.Impl.XirLab.Freeze

/-!
# What a freeze says about the database that it holds

A freeze reads the violations, the raw blobs and the journal, and then copies
the database, while others commit. What it publishes agrees with the copy if
and only if what it read is still so when the copy is made
(`freeze_consistent_iff`).
-/

namespace Xir.Impl.XirLab.EvidenceStore

open FreezeLibraries

section

variable [FreezeLibraries] {s s' : Freezing} {freezeID runID : String} {version : Int} {scope : FreezeLibraries.Scope}
  {destination path : List String}

/-- What was asked in a freeze. -/
abbrev Record := List (Prog.Asked FreezeOp (fun op => Except LabError op.Answer) Freezing)

/-- Others commit what they like, and leave the destination alone. -/
def Meanwhile (s s' : Freezing) : Prop := s'.directory = s.directory

/-- The freeze runs to its end, from one state of the database to another, and this is what it asks. -/
abbrev Returns (freezeID runID : String) (version : Int) (scope : FreezeLibraries.Scope) (destination : List String)
    (s : Freezing) (path : List String) (s' : Freezing) (es : Record) : Prop :=
  Prog.Exec (Prog.Recorded (fun op s => Answers s op) Meanwhile) (createFreeze freezeID runID version scope destination)
    (s, []) (.returned path) (s', es)

/-- The manifests list the rows of the database beside them, in which no violation of the run is unresolved. -/
def Consistent (runID : String) (s : Freezing) : Prop :=
  ∃ directory copy, s.directory = some directory ∧ directory.database = some copy ∧
    directory.rawManifest = some copy.rawRows ∧ directory.journalManifest = some copy.journalRows ∧
    copy.unresolved runID = 0

/-- What was read of the database has not changed when it is copied. -/
def Undisturbed (runID : String) (es : Record) : Prop :=
  ∃ checked raw journal copied : Freezing,
    Prog.askedIn es (.unresolvedViolations runID) = [checked] ∧ Prog.askedIn es .rawRows = [raw] ∧
    Prog.askedIn es .journalRows = [journal] ∧ Prog.askedIn es .backup = [copied] ∧
    copied.tables.unresolved runID = checked.tables.unresolved runID ∧
    copied.tables.rawRows = raw.tables.rawRows ∧ copied.tables.journalRows = journal.tables.journalRows

/-- The reads of a freeze and the copy, and what it publishes of them. -/
theorem Returns.published {es : Record} (run : Returns freezeID runID version scope destination s path s' es) :
    ∃ checked raw journal copied : Freezing,
      Prog.askedIn es (.unresolvedViolations runID) = [checked] ∧ Prog.askedIn es .rawRows = [raw] ∧
      Prog.askedIn es .journalRows = [journal] ∧ Prog.askedIn es .backup = [copied] ∧
      checked.tables.unresolved runID = 0 ∧ ∃ directory, s'.directory = some directory ∧
        directory.database = some copied.tables ∧ directory.rawManifest = some raw.tables.rawRows ∧
        directory.journalManifest = some journal.tables.journalRows := by
  obtain ⟨_, -, run⟩ := run.returned_ofExcept
  obtain ⟨made, _, _, -, answer₀, run⟩ := run.returned_recorded
  obtain ⟨checked, _, _, m₁, answer₁, run⟩ := run.returned_recorded
  obtain ⟨_, resolved, run⟩ := run.returned_ofExcept
  obtain ⟨raw, _, _, m₂, answer₂, run⟩ := run.returned_recorded
  obtain ⟨journal, _, _, m₃, answer₃, run⟩ := run.returned_recorded
  obtain ⟨_, -, run⟩ := run.returned_ofExcept
  obtain ⟨_, -, run⟩ := run.returned_ofExcept
  obtain ⟨_, -, run⟩ := run.returned_ofExcept
  obtain ⟨copied, _, _, m₄, answer₄, run⟩ := run.returned_recorded
  obtain ⟨_, -, run⟩ := run.returned_ofExcept
  obtain ⟨_, -, run⟩ := run.returned_ofExcept
  obtain ⟨written₁, _, _, m₅, answer₅, run⟩ := run.returned_recorded
  obtain ⟨written₂, _, _, m₆, answer₆, run⟩ := run.returned_recorded
  obtain ⟨inserted, _, _, m₇, answer₇, run⟩ := run.returned_recorded
  obtain ⟨_, -, run⟩ := run.returned_ofExcept
  obtain ⟨written₃, _, _, m₈, answer₈, run⟩ := run.returned_recorded
  obtain ⟨-, ended⟩ := run.returned_pure
  cases answer₀; cases answer₁; cases answer₂; cases answer₃; cases answer₄; cases answer₅; cases answer₆; cases answer₇
  cases answer₈
  cases ended
  -- what the destination holds after each write
  have made : copied.directory = some ⟨none, none, none, none⟩ := m₄.trans (m₃.trans (m₂.trans m₁))
  have copy : written₁.directory = some ⟨some copied.tables, none, none, none⟩ :=
    m₅.trans (congrArg (Option.map _) made)
  have rawManifest : written₂.directory = some ⟨some copied.tables, some raw.tables.rawRows, none, none⟩ :=
    m₆.trans (congrArg (Option.map _) copy)
  have journalManifest : written₃.directory =
      some ⟨some copied.tables, some raw.tables.rawRows, some journal.tables.journalRows, none⟩ :=
    m₈.trans (m₇.trans (congrArg (Option.map _) rawManifest))
  refine ⟨checked, raw, journal, copied, ?_, ?_, ?_, ?_, not_not.mp (revertIf_eq_ok.mp resolved), _,
    congrArg (Option.map _) journalManifest, rfl, rfl, rfl⟩
  iterate 4 simp [Prog.askedIn]

/-- What a freeze publishes agrees with the database that it copied if and only
if what it read had not changed by then. -/
theorem freeze_consistent_iff {es : Record} (run : Returns freezeID runID version scope destination s path s' es) :
    Consistent runID s' ↔ Undisturbed runID es := by
  obtain ⟨checked, raw, journal, copied, h₀, h₁, h₂, h₃, resolved, directory, hd, database, rawManifest,
      journalManifest⟩ :=
    run.published
  constructor
  · rintro ⟨directory', copy, hd', database', raw', journal', unresolved⟩
    obtain rfl := Option.some.inj (hd.symm.trans hd')
    obtain rfl := Option.some.inj (database.symm.trans database')
    exact ⟨checked, raw, journal, copied, h₀, h₁, h₂, h₃, unresolved.trans resolved.symm,
      Option.some.inj (raw'.symm.trans rawManifest), Option.some.inj (journal'.symm.trans journalManifest)⟩
  · rintro ⟨checked', raw', journal', copied', h₀', h₁', h₂', h₃', unresolved, rawRows, journalRows⟩
    obtain rfl := List.singleton_inj.mp (h₀.symm.trans h₀')
    obtain rfl := List.singleton_inj.mp (h₁.symm.trans h₁')
    obtain rfl := List.singleton_inj.mp (h₂.symm.trans h₂')
    obtain rfl := List.singleton_inj.mp (h₃.symm.trans h₃')
    exact ⟨directory, copied.tables, hd, database, rawRows ▸ rawManifest, journalRows ▸ journalManifest,
      unresolved.trans resolved⟩

end

/-! ## A freeze of an empty database -/

def emptyDigest : String := String.ofList (List.replicate 64 '0')

/-- Every text is empty, and every digest is zero. -/
@[reducible] def blankLibraries : FreezeLibraries where
  Scope := Unit
  canonicalJSON _ := .ok ""
  sha256 _ := emptyDigest
  databaseSHA256 _ := emptyDigest
  parts _ := []

def freezeRow : FreezeRow := ⟨"freeze", "run", 1, "", emptyDigest, emptyDigest, emptyDigest⟩

def noEvidence : Evidence := ⟨[], [], [], []⟩

def oneHalt : Evidence :=
  ⟨[], [⟨1, "run", "run", none, "halted", "{}", "2026"⟩], [⟨"violation", "run", "conflict", none⟩], []⟩

/-- A freeze of an empty database, in which this is committed before the copy. -/
theorem freeze_of_commit (e : Evidence) (he : e.freezes = []) : let _ := blankLibraries
    ∃ path s' es, Returns "freeze" "run" 1 () ["freezes"] ⟨noEvidence, none⟩ path s' es ∧
      (∃ directory, s'.directory = some directory ∧ directory.database = some e) ∧
      (e = noEvidence → Undisturbed "run" es) := by
  intro _
  have raw (directory : Option FreezeDirectory) :
      Answers ⟨noEvidence, directory⟩ .rawRows (.ok []) ⟨noEvidence, directory⟩ := by
    have rows : noEvidence.rawRows = [] := by simp [Evidence.rawRows, noEvidence]
    exact rows ▸ .rawRows
  have journal (directory : Option FreezeDirectory) :
      Answers ⟨noEvidence, directory⟩ .journalRows (.ok []) ⟨noEvidence, directory⟩ := by
    have rows : noEvidence.journalRows = [] := by simp [Evidence.journalRows, noEvidence]
    exact rows ▸ .journalRows
  have inserted : e.insertFreeze freezeRow = .ok { e with freezes := [freezeRow] } := by
    rw [Evidence.insertFreeze, he]
    rfl
  refine ⟨_, _, _, .op (.step rfl (.makeDirectory rfl)) <| .op (.step rfl (.unresolvedViolations _)) <|
    .op (.step rfl (raw _)) <| .op (.step rfl (journal _)) <|
    .op (.step (show Meanwhile _ ⟨e, _⟩ from rfl) .backup) <| .op (.step rfl (.writeRawManifest _)) <|
    .op (.step rfl (.writeJournalManifest _)) <| .op (.step rfl (.insertFreeze inserted)) <|
    .op (.step rfl (.writeFreezeManifest _)) .done, ⟨_, rfl, rfl⟩, fun same => ?_⟩
  subst same
  exact ⟨_, _, _, _, rfl, rfl, rfl, rfl, rfl, rfl, rfl⟩

theorem freeze_consistent_iff_undisturbed : ∃ s', @Consistent "run" s' := by
  let _ := blankLibraries
  obtain ⟨path, s', es, run, -, undisturbed⟩ := freeze_of_commit noEvidence rfl
  exact ⟨s', (freeze_consistent_iff run).mpr (undisturbed rfl)⟩

/-- A run is halted for a violation between the reads of a freeze and its copy. -/
theorem freeze_disturbed :
    ∃ (_ : FreezeLibraries) (scope : FreezeLibraries.Scope) (path : List String) (s s' : Freezing)
    (es : Record), Returns "freeze" "run" 1 scope ["freezes"] s path s' es ∧ ¬ Consistent "run" s' := by
  obtain ⟨path, s', es, run, ⟨directory, hd, database⟩, -⟩ := freeze_of_commit oneHalt rfl
  refine ⟨blankLibraries, (), path, _, s', es, run, ?_⟩
  rintro ⟨directory', copy, hd', database', -, -, unresolved⟩
  obtain rfl := Option.some.inj (hd.symm.trans hd')
  obtain rfl := Option.some.inj (database.symm.trans database')
  exact absurd unresolved (by decide)

end Xir.Impl.XirLab.EvidenceStore
