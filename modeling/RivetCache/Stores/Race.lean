/-
**`store.rs`: writers that race.**

Callers of `put_if_absent` on one key share a directory: threads of one process share its counter too,
other processes have their own. Each call to the file system is one step of a caller (`WriterPhase`), and
the steps of the callers interleave.

* `alone_putIfAbsent`: a caller that nobody disturbs does what `put_if_absent` does;
* `Moved`: what one step can do where no call to the file system fails;
* `first_writer_wins`: one caller reports that it has inserted, and its entry is served, in every run in
  which no caller renames over a file that is there.
-/

import RivetCache.Stores.Format
import RivetCache.Library.Parties

set_option linter.unusedSectionVars false

namespace RivetCache

open Library

/-- The callers of `put_if_absent` on one key: the process that each runs in, and its entry. -/
structure Writers (ι : Type) where
  key : FileStore.FileKey
  process : ι → Nat
  entry : ι → {entry : StoredEntry // entry.Representable}

/-- The directory that the processes share, and the counter `TEMP_NONCE` of each. -/
structure SharedDirectory where
  files : Table String File
  nonces : Nat → Nat

/-- The directory as a process sees it. -/
def SharedDirectory.view (s : SharedDirectory) (process : Nat) : Directory := ⟨s.files, s.nonces process⟩

/-- The directory as a process leaves it. -/
def SharedDirectory.left (s : SharedDirectory) (process : Nat) (dir : Directory) : SharedDirectory :=
  ⟨dir.files, Function.update s.nonces process dir.nonce⟩

/-- How far a call of `put_if_absent` is. -/
inductive WriterPhase where
  /-- before it asks for the file of the key -/
  | ready
  /-- the file of the key was not there -/
  | missing
  /-- the temporary file has a name -/
  | named (nonce : Nat)
  /-- the temporary file is open, and these parts are to be written -/
  | writing (nonce place : Nat) (rest : List (List UInt8))
  /-- the temporary file is written out -/
  | synced (nonce : Nat)
  | done (result : Except IoError PutOutcome)
  deriving DecidableEq

/-- The phase that the writes lead to. -/
def WriterPhase.written (nonce place : Nat) : Except IoError Unit → WriterPhase
  | .error error => .done (.error error)
  | .ok () => .writing nonce place []

/-- The nonce of the temporary file that a caller has open or is about to rename. -/
def WriterPhase.held : WriterPhase → Option Nat
  | .writing nonce _ _ => some nonce
  | .synced nonce => some nonce
  | _ => none

/-- The call has reported that it has inserted. -/
def WriterPhase.Inserted (phase : WriterPhase) : Prop :=
  ∃ storedBytes, phase = .done (.ok ⟨true, storedBytes⟩)

namespace Writers

variable {ι : Type} (os : FileAmbient) (writers : Writers ι)

/-- What a caller finds around it. -/
def ambient (caller : ι) : FileAmbient := { os with processId := writers.process caller }

/-- The temporary file of a caller. -/
def temp (caller : ι) (nonce : Nat) : String := tempName (writers.ambient os caller) nonce

/-- The file of the key. -/
def final : String := fileName writers.key

/-- One call of `put_if_absent` to the file system. What it does once a rename fails is not split up. -/
def move (caller : ι) : WriterPhase → SharedDirectory → WriterPhase × SharedDirectory
  | .ready, s =>
      match (s.view (writers.process caller)).metadata (writers.ambient os caller) writers.final with
      | .ok file => (.done (.ok ⟨false, file.bytes.length⟩), s)
      | .error _ => (.missing, s)
  | .missing, s =>
      (.named (s.nonces (writers.process caller)),
        { s with
          nonces := Function.update s.nonces (writers.process caller)
            ((s.nonces (writers.process caller) + 1) % 2 ^ 64) })
  | .named nonce, s =>
      match os.fault .create with
      | some error => (.done (.error error), s)
      | none =>
          match s.files.lookup (writers.temp os caller nonce) with
          | some _ => (.done (.error ⟨.alreadyExists, "File exists (os error 17)"⟩), s)
          | none =>
              (.writing nonce 0 (fileParts (writers.ambient os caller) (writers.entry caller)),
                { s with
                  files := s.files.insert (writers.temp os caller nonce) ⟨[], os.seconds nonce⟩ })
  | .writing nonce place (part :: rest), s =>
      match os.fault (.write place) with
      | some error => (.done (.error error), s)
      | none =>
          match s.files.lookup (writers.temp os caller nonce) with
          | some file =>
              (.writing nonce (place + 1) rest,
                { s with
                  files := s.files.insert (writers.temp os caller nonce)
                    { file with bytes := file.bytes ++ part } })
          | none => (.writing nonce (place + 1) rest, s)
  | .writing nonce _ [], s =>
      match os.fault .sync with
      | some error => (.done (.error error), s)
      | none => (.synced nonce, s)
  | .synced nonce, s =>
      let (result, dir) := FileStore.renameTemp (writers.ambient os caller)
        (writers.temp os caller nonce) writers.final
        (satAdd headerLen (writers.entry caller).1.value.length) (s.view (writers.process caller))
      (.done result, { s with files := dir.files })
  | .done result, s => (.done result, s)

/-! ### A caller that nobody disturbs -/

theorem removeFile_nonce (amb : FileAmbient) (name : String) (dir : Directory) :
    (dir.removeFile amb name).2.nonce = dir.nonce := by
  unfold Directory.removeFile
  split
  case h_1 _ => rfl
  case h_2 _ => split <;> rfl

theorem renameTemp_nonce (amb : FileAmbient) (temp name : String) (storedBytes : Nat)
    (dir : Directory) :
    (FileStore.renameTemp amb temp name storedBytes dir).2.nonce = dir.nonce := by
  unfold FileStore.renameTemp
  split
  case h_1 _ => split <;> rfl
  case h_2 _ =>
    split
    case isTrue _ =>
      simp only
      split
      case h_1 _ => exact removeFile_nonce amb temp dir
      case h_2 _ => exact removeFile_nonce amb temp dir
    case isFalse _ => exact removeFile_nonce amb temp dir

/-- The writes of the temporary file. -/
theorem alone_writing (caller : ι) (nonce : Nat) (files : Table String File) (nonces : Nat → Nat) :
    ∀ (rest : List (List UInt8)) (place : Nat) (written : List UInt8),
      Alone (writers.move os caller)
        (.writing nonce place rest,
          ⟨files.insert (writers.temp os caller nonce) ⟨written, os.seconds nonce⟩, nonces⟩)
        (.written nonce (place + rest.length)
            (FileStore.writeParts (writers.ambient os caller) place rest written).1,
          ⟨files.insert (writers.temp os caller nonce)
            ⟨(FileStore.writeParts (writers.ambient os caller) place rest written).2,
              os.seconds nonce⟩, nonces⟩)
  | [], place, written => .refl
  | part :: rest, place, written => by
      cases fails : os.fault (.write place) with
      | some error =>
          have ran : FileStore.writeParts (writers.ambient os caller) place (part :: rest) written =
              (.error error, written) := by
            unfold FileStore.writeParts
            rw [show (writers.ambient os caller).fault (.write place) = some error from fails]
          rw [ran]
          refine Alone.next ?_ .refl
          simp only [move, fails]
          rfl
      | none =>
          have ran : FileStore.writeParts (writers.ambient os caller) place (part :: rest) written =
              FileStore.writeParts (writers.ambient os caller) (place + 1) rest (written ++ part) := by
            conv_lhs => unfold FileStore.writeParts
            rw [show (writers.ambient os caller).fault (.write place) = none from fails]
          have count : place + (part :: rest).length = place + 1 + rest.length := by
            rw [List.length_cons]
            omega
          rw [ran, count]
          refine Alone.next ?_
            (alone_writing caller nonce files nonces rest (place + 1) (written ++ part))
          simp only [move, fails, AList.lookup_insert, AList.insert_insert]

/-- From the name of the temporary file on. -/
theorem alone_missing (caller : ι) (s : SharedDirectory) :
    Alone (writers.move os caller) (.missing, s)
      (.done (FileStore.writeTemp (writers.ambient os caller)
          (writers.temp os caller (s.nonces (writers.process caller))) writers.final
          (os.seconds (s.nonces (writers.process caller))) (writers.entry caller)
          ⟨s.files, (s.nonces (writers.process caller) + 1) % 2 ^ 64⟩).1,
        s.left (writers.process caller) (FileStore.writeTemp (writers.ambient os caller)
          (writers.temp os caller (s.nonces (writers.process caller))) writers.final
          (os.seconds (s.nonces (writers.process caller))) (writers.entry caller)
          ⟨s.files, (s.nonces (writers.process caller) + 1) % 2 ^ 64⟩).2) := by
  generalize counted : s.nonces (writers.process caller) = nonce
  refine Alone.next rfl ?_
  rw [counted]
  unfold FileStore.writeTemp
  rw [show (writers.ambient os caller).fault .create = os.fault .create from rfl]
  cases create : os.fault .create with
  | some error =>
      refine Alone.next ?_ .refl
      simp only [move, create]
      rfl
  | none =>
      cases fresh : s.files.lookup (writers.temp os caller nonce) with
      | some file =>
          refine Alone.next ?_ .refl
          simp only [move, create, fresh]
          rfl
      | none =>
          have writes := alone_writing os writers caller nonce s.files
            (Function.update s.nonces (writers.process caller) ((nonce + 1) % 2 ^ 64))
            (fileParts (writers.ambient os caller) (writers.entry caller)) 0 []
          have created : writers.move os caller (.named nonce)
              { s with
                nonces := Function.update s.nonces (writers.process caller) ((nonce + 1) % 2 ^ 64) } =
              (.writing nonce 0 (fileParts (writers.ambient os caller) (writers.entry caller)),
                ⟨s.files.insert (writers.temp os caller nonce) ⟨[], os.seconds nonce⟩,
                  Function.update s.nonces (writers.process caller) ((nonce + 1) % 2 ^ 64)⟩) := by
            simp only [move, create, fresh]
          refine Alone.next created (writes.trans ?_)
          simp only
          generalize FileStore.writeParts (writers.ambient os caller) 0
            (fileParts (writers.ambient os caller) (writers.entry caller)) [] = result
          obtain ⟨outcome, written⟩ := result
          cases outcome with
          | error error => exact .refl
          | ok value =>
              rw [show (writers.ambient os caller).fault .sync = os.fault .sync from rfl]
              cases sync : os.fault .sync with
              | some error =>
                  refine Alone.next ?_ .refl
                  simp only [move, sync]
                  rfl
              | none =>
                  have closed : ∀ (place : Nat) (left : SharedDirectory),
                      writers.move os caller (.writing nonce place []) left = (.synced nonce, left) := by
                    intro place left
                    simp only [move, sync]
                  refine Alone.next (closed _ _) (Alone.next ?_ .refl)
                  unfold move SharedDirectory.view SharedDirectory.left
                  simp only [Function.update_self, renameTemp_nonce]

/-- **A caller that nobody disturbs does what `put_if_absent` does.** -/
theorem alone_putIfAbsent (caller : ι) (s : SharedDirectory) :
    Alone (writers.move os caller) (.ready, s)
      (.done (FileStore.putIfAbsent (writers.ambient os caller) writers.key (writers.entry caller)
          (s.view (writers.process caller))).1,
        s.left (writers.process caller) (FileStore.putIfAbsent (writers.ambient os caller) writers.key
          (writers.entry caller) (s.view (writers.process caller))).2) := by
  unfold FileStore.putIfAbsent
  rw [pathFor_valid writers.key.2]
  cases found : (s.view (writers.process caller)).metadata (writers.ambient os caller) writers.final with
  | ok file =>
      refine Alone.next ?_ .refl
      have same : (s.view (writers.process caller)).metadata (writers.ambient os caller)
          (fileName writers.key) = .ok file := found
      simp only [move, found, same]
      unfold SharedDirectory.left SharedDirectory.view
      rw [Function.update_eq_self]
  | error error =>
      have same : (s.view (writers.process caller)).metadata (writers.ambient os caller)
          (fileName writers.key) = .error error := found
      have asked : writers.move os caller .ready s = (.missing, s) := by simp only [move, found]
      refine Alone.next asked ?_
      simp only [same]
      exact alone_missing os writers caller s

/-! ### What a step can do -/

variable {os writers}

/-- **What one step of a caller can do** where no call to the file system fails and no file is replaced.
A caller that has been refused its temporary file does not get here. -/
inductive Moved (os : FileAmbient) (writers : Writers ι) (caller : ι) (s : SharedDirectory) :
    WriterPhase → WriterPhase → SharedDirectory → Prop
  | found (file : File) (there : s.files.lookup writers.final = some file) :
      Moved os writers caller s .ready (.done (.ok ⟨false, file.bytes.length⟩)) s
  | missing (absent : s.files.lookup writers.final = none) :
      Moved os writers caller s .ready .missing s
  | named (nonce : Nat) (nonces : Nat → Nat) :
      Moved os writers caller s .missing (.named nonce) ⟨s.files, nonces⟩
  | refused (nonce : Nat) (error : IoError) :
      Moved os writers caller s (.named nonce) (.done (.error error)) s
  | created (nonce modified : Nat)
      (fresh : s.files.lookup (writers.temp os caller nonce) = none) :
      Moved os writers caller s (.named nonce)
        (.writing nonce 0 (fileParts os (writers.entry caller)))
        ⟨s.files.insert (writers.temp os caller nonce) ⟨[], modified⟩, s.nonces⟩
  | wrote (nonce place : Nat) (part : List UInt8) (rest : List (List UInt8)) (file : File)
      (there : s.files.lookup (writers.temp os caller nonce) = some file) :
      Moved os writers caller s (.writing nonce place (part :: rest))
        (.writing nonce (place + 1) rest)
        ⟨s.files.insert (writers.temp os caller nonce) { file with bytes := file.bytes ++ part },
          s.nonces⟩
  | synced (nonce place : Nat) :
      Moved os writers caller s (.writing nonce place []) (.synced nonce) s
  | renamed (nonce storedBytes : Nat) (file : File)
      (there : s.files.lookup (writers.temp os caller nonce) = some file)
      (absent : s.files.lookup writers.final = none) :
      Moved os writers caller s (.synced nonce) (.done (.ok ⟨true, storedBytes⟩))
        ⟨(s.files.erase (writers.temp os caller nonce)).insert writers.final file, s.nonces⟩
  | ended (result : Except IoError PutOutcome) :
      Moved os writers caller s (.done result) (.done result) s

/-- What a caller has of its own: its temporary file holds what it has written so far; what it reports is
there. -/
def Own (os : FileAmbient) (writers : Writers ι) (caller : ι) (s : SharedDirectory) :
    WriterPhase → Prop
  | .writing nonce _ rest => ∃ file, s.files.lookup (writers.temp os caller nonce) = some file ∧
      file.bytes ++ rest.flatten = encode os (writers.entry caller)
  | .synced nonce => ∃ file, s.files.lookup (writers.temp os caller nonce) = some file ∧
      file.bytes = encode os (writers.entry caller)
  | .done (.ok ⟨true, _⟩) => ∃ file, s.files.lookup writers.final = some file ∧
      file.bytes = encode os (writers.entry caller)
  | .done (.ok ⟨false, _⟩) => ∃ file, s.files.lookup writers.final = some file
  | _ => True

theorem moved (faultless : os.Faultless) {caller : ι} {s : SharedDirectory} {phase : WriterPhase}
    (own : Own os writers caller s phase)
    (fresh : ∀ nonce, phase = .synced nonce → s.files.lookup writers.final = none) :
    Moved os writers caller s phase (writers.move os caller phase s).1
      (writers.move os caller phase s).2 := by
  have calm : (writers.ambient os caller).Faultless := faultless
  cases phase with
  | ready =>
      cases there : s.files.lookup writers.final with
      | some file =>
          have stat : (s.view (writers.process caller)).metadata (writers.ambient os caller)
              writers.final = .ok file := Directory.metadata_found calm there
          simp only [move, stat]
          exact .found file there
      | none =>
          obtain ⟨error, stat⟩ : ∃ error, (s.view (writers.process caller)).metadata
              (writers.ambient os caller) writers.final = .error error :=
            Directory.metadata_missing calm there
          simp only [move, stat]
          exact .missing there
  | missing => exact .named _ _
  | named nonce =>
      cases there : s.files.lookup (writers.temp os caller nonce) with
      | some file =>
          simp only [move, faultless .create, there]
          exact .refused nonce _
      | none =>
          simp only [move, faultless .create, there]
          exact .created nonce _ there
  | writing nonce place rest =>
      cases rest with
      | nil =>
          simp only [move, faultless .sync]
          exact .synced nonce place
      | cons part rest =>
          obtain ⟨file, there, _⟩ := own
          simp only [move, faultless (.write place), there]
          exact .wrote nonce place part rest file there
  | synced nonce =>
      obtain ⟨file, there, _⟩ := own
      have renamed := FileStore.renameTemp_ok calm (s.view (writers.process caller)) writers.final
        (satAdd headerLen (writers.entry caller).1.value.length) there
      simp only [move, renamed]
      exact .renamed nonce _ file there (fresh nonce rfl)
  | done result => exact .ended result

/-! ### What a step keeps -/

theorem temp_ne_final (caller : ι) (nonce : Nat) : writers.temp os caller nonce ≠ writers.final :=
  tempName_ne_fileName _ _ _

/-- A temporary file in use is there. -/
theorem Own.there {caller : ι} {s : SharedDirectory} {phase : WriterPhase} {nonce : Nat}
    (own : Own os writers caller s phase) (held : phase.held = some nonce) :
    ∃ file, s.files.lookup (writers.temp os caller nonce) = some file := by
  cases phase with
  | writing other place rest =>
      cases held
      exact own.imp fun _ => And.left
  | synced other =>
      cases held
      exact own.imp fun _ => And.left
  | ready => exact nomatch held
  | missing => exact nomatch held
  | named other => exact nomatch held
  | done result => exact nomatch held

section Step

variable {caller other : ι} {s after : SharedDirectory} {phase next : WriterPhase}
  (step : Moved os writers caller s phase next after)

include step

/-- A step keeps every file but the temporary file of the caller. -/
theorem Moved.keeps {name : String} {file : File} (there : s.files.lookup name = some file)
    (foreign : ∀ nonce, phase.held = some nonce → name ≠ writers.temp os caller nonce) :
    after.files.lookup name = some file := by
  cases step with
  | found _ _ => exact there
  | missing _ => exact there
  | named _ _ => exact there
  | refused _ _ => exact there
  | created nonce modified fresh =>
      have different : name ≠ writers.temp os caller nonce := by
        rintro rfl
        rw [there] at fresh
        exact nomatch fresh
      exact (AList.lookup_insert_ne different).trans there
  | wrote nonce place part rest _ _ => exact (AList.lookup_insert_ne (foreign nonce rfl)).trans there
  | synced _ _ => exact there
  | renamed nonce storedBytes _ _ absent =>
      have different : name ≠ writers.final := by
        rintro rfl
        rw [there] at absent
        exact nomatch absent
      show ((s.files.erase _).insert writers.final _).lookup name = _
      rw [AList.lookup_insert_ne different, AList.lookup_erase_ne (foreign nonce rfl)]
      exact there
  | ended _ => exact there

/-- The caller's own part, after its step. -/
theorem Moved.own (own : Own os writers caller s phase) : Own os writers caller after next := by
  cases step with
  | found file there => exact ⟨file, there⟩
  | missing _ => trivial
  | named _ _ => trivial
  | refused _ _ => trivial
  | created nonce modified fresh => exact ⟨_, AList.lookup_insert _, rfl⟩
  | wrote nonce place part rest file there =>
      obtain ⟨same, present, bytes⟩ := own
      rw [there] at present
      cases present
      refine ⟨_, AList.lookup_insert _, ?_⟩
      rw [List.append_assoc]
      exact bytes
  | synced nonce place =>
      obtain ⟨file, there, bytes⟩ := own
      rw [List.flatten_nil, List.append_nil] at bytes
      exact ⟨file, there, bytes⟩
  | renamed nonce storedBytes file there _ =>
      obtain ⟨same, present, bytes⟩ := own
      rw [there] at present
      cases present
      exact ⟨file, AList.lookup_insert _, bytes⟩
  | ended _ => exact own

/-- Another caller's part, after a step. -/
theorem Moved.relied {phaseOther : WriterPhase} (own : Own os writers other s phaseOther)
    (apart : ∀ nonce nonce', phaseOther.held = some nonce → phase.held = some nonce' →
      writers.temp os other nonce ≠ writers.temp os caller nonce') :
    Own os writers other after phaseOther := by
  have final : ∀ file, s.files.lookup writers.final = some file →
      after.files.lookup writers.final = some file := fun file there =>
    step.keeps there fun nonce _ => (temp_ne_final caller nonce).symm
  cases phaseOther with
  | ready => trivial
  | missing => trivial
  | named nonce => trivial
  | writing nonce place rest =>
      obtain ⟨file, there, bytes⟩ := own
      exact ⟨file, step.keeps there fun nonce' held => apart nonce nonce' rfl held, bytes⟩
  | synced nonce =>
      obtain ⟨file, there, bytes⟩ := own
      exact ⟨file, step.keeps there fun nonce' held => apart nonce nonce' rfl held, bytes⟩
  | done result =>
      match result, own with
      | .error _, _ => trivial
      | .ok ⟨true, _⟩, ⟨file, there, bytes⟩ => exact ⟨file, final file there, bytes⟩
      | .ok ⟨false, _⟩, ⟨file, there⟩ => exact ⟨file, final file there⟩

/-- A temporary file that a step takes was not there. -/
theorem Moved.held {nonce : Nat} (held : next.held = some nonce) :
    phase.held = some nonce ∨ s.files.lookup (writers.temp os caller nonce) = none := by
  cases step with
  | created nonce modified fresh =>
      cases held
      exact .inr fresh
  | wrote nonce place part rest _ _ => exact .inl held
  | synced nonce place => exact .inl held
  | found _ _ => exact nomatch held
  | missing _ => exact nomatch held
  | named _ _ => exact nomatch held
  | refused _ _ => exact nomatch held
  | renamed _ _ _ _ _ => exact nomatch held
  | ended _ => exact nomatch held

/-- The file of the key appears with a caller that reports it. -/
theorem Moved.final {file : File} (there : after.files.lookup writers.final = some file) :
    s.files.lookup writers.final = some file ∨
      (s.files.lookup writers.final = none ∧ next.Inserted) := by
  cases step with
  | found _ _ => exact .inl there
  | missing _ => exact .inl there
  | named _ _ => exact .inl there
  | refused _ _ => exact .inl there
  | created nonce modified fresh =>
      exact .inl ((AList.lookup_insert_ne (temp_ne_final caller nonce).symm).symm.trans there)
  | wrote nonce place part rest _ _ =>
      exact .inl ((AList.lookup_insert_ne (temp_ne_final caller nonce).symm).symm.trans there)
  | synced _ _ => exact .inl there
  | renamed nonce storedBytes _ _ absent => exact .inr ⟨absent, storedBytes, rfl⟩
  | ended _ => exact .inl there

/-- A caller reports an insertion where the file of the key was not there. -/
theorem Moved.inserted (inserted : next.Inserted) :
    phase.Inserted ∨ s.files.lookup writers.final = none := by
  cases step with
  | renamed nonce storedBytes _ _ absent => exact .inr absent
  | ended _ => exact .inl inserted
  | found _ _ =>
      obtain ⟨bytes, same⟩ := inserted
      cases same
  | missing _ => exact nomatch inserted
  | named _ _ => exact nomatch inserted
  | refused _ _ => exact nomatch inserted
  | created _ _ _ => exact nomatch inserted
  | wrote _ _ _ _ _ _ => exact nomatch inserted
  | synced _ _ => exact nomatch inserted

theorem Moved.stays (inserted : phase.Inserted) : next = phase := by
  obtain ⟨bytes, rfl⟩ := inserted
  cases step
  rfl

end Step

/-! ### Runs -/

/-- The callers and their directory. -/
abbrev Racing (ι : Type) := Parties ι WriterPhase SharedDirectory

/-- **The invariant**: every caller has what is its own, no two callers share a temporary file, the file of
the key is one that a caller reports, and only one does. -/
structure Orderly (os : FileAmbient) (writers : Writers ι) (racing : Racing ι) : Prop where
  own : ∀ caller, Own os writers caller racing.state (racing.phase caller)
  apart : ∀ caller other, caller ≠ other → ∀ nonce nonce',
    (racing.phase caller).held = some nonce → (racing.phase other).held = some nonce' →
    writers.temp os caller nonce ≠ writers.temp os other nonce'
  reported : ∀ file, racing.state.files.lookup writers.final = some file →
    ∃ caller, (racing.phase caller).Inserted
  once : ∀ caller other, (racing.phase caller).Inserted → (racing.phase other).Inserted →
    caller = other

/-- **The condition**: a caller about to rename finds no file of the key. -/
def FindsNone (writers : Writers ι) (caller : ι) (racing : Racing ι) : Prop :=
  ∀ nonce, racing.phase caller = .synced nonce → racing.state.files.lookup writers.final = none

variable [DecidableEq ι]

theorem orderly_advance (faultless : os.Faultless) {caller : ι} {racing : Racing ι}
    (orderly : Orderly os writers racing) (none : FindsNone writers caller racing) :
    Orderly os writers (racing.advance (writers.move os) caller) := by
  have step := moved faultless (orderly.own caller) none
  have stays : ∀ other, (racing.phase other).Inserted →
      ((racing.advance (writers.move os) caller).phase other).Inserted := by
    intro other inserted
    by_cases same : other = caller
    · subst same
      rw [Parties.phase_own, step.stays inserted]
      exact inserted
    · rwa [Parties.phase_other same]
  have first : ∀ other, other ≠ caller →
      ((racing.advance (writers.move os) caller).phase caller).Inserted →
      ((racing.advance (writers.move os) caller).phase other).Inserted → False := by
    intro other different mine others
    rw [Parties.phase_own] at mine
    rw [Parties.phase_other different] at others
    rcases step.inserted mine with before | absent
    · exact different (orderly.once _ _ others before)
    · obtain ⟨bytes, ended⟩ := others
      have own := orderly.own other
      rw [ended] at own
      obtain ⟨file, there, _⟩ := own
      rw [there] at absent
      exact nomatch absent
  refine ⟨?_, ?_, ?_, ?_⟩
  · refine Parties.forall_advance (fun party phase s => Own os writers party s phase)
      (step.own (orderly.own caller)) (fun other different own => ?_) orderly.own
    exact step.relied own (orderly.apart other caller different)
  · intro left right different nonce nonce' heldLeft heldRight
    by_cases mineLeft : left = caller
    · subst mineLeft
      rw [Parties.phase_own] at heldLeft
      rw [Parties.phase_other different.symm] at heldRight
      rcases step.held heldLeft with before | fresh
      · exact orderly.apart left right different nonce nonce' before heldRight
      · intro same
        obtain ⟨file, there⟩ := (orderly.own right).there heldRight
        rw [← same, fresh] at there
        exact nomatch there
    · rw [Parties.phase_other mineLeft] at heldLeft
      by_cases mineRight : right = caller
      · subst mineRight
        rw [Parties.phase_own] at heldRight
        rcases step.held heldRight with before | fresh
        · exact orderly.apart left right different nonce nonce' heldLeft before
        · intro same
          obtain ⟨file, there⟩ := (orderly.own left).there heldLeft
          rw [same, fresh] at there
          exact nomatch there
      · rw [Parties.phase_other mineRight] at heldRight
        exact orderly.apart left right different nonce nonce' heldLeft heldRight
  · intro file there
    rcases step.final there with before | ⟨_, inserted⟩
    · obtain ⟨other, inserted⟩ := orderly.reported file before
      exact ⟨other, stays other inserted⟩
    · refine ⟨caller, ?_⟩
      rwa [Parties.phase_own]
  · intro left right mine others
    by_cases mineLeft : left = caller
    · subst mineLeft
      by_cases same : right = left
      · exact same.symm
      · exact absurd (first right same mine others) not_false
    · by_cases mineRight : right = caller
      · subst mineRight
        exact absurd (first left mineLeft others mine) not_false
      · rw [Parties.phase_other mineLeft] at mine
        rw [Parties.phase_other mineRight] at others
        exact orderly.once left right mine others

/-- The callers before they start, at a directory. -/
def Starting (writers : Writers ι) (racing : Racing ι) : Prop :=
  (∀ caller, racing.phase caller = .ready) ∧ racing.state.files.lookup writers.final = none

theorem starting_orderly {racing : Racing ι} (starting : Starting writers racing) :
    Orderly os writers racing := by
  obtain ⟨ready, absent⟩ := starting
  refine ⟨fun caller => ?_, fun caller _ _ nonce _ held => ?_, fun file there => ?_,
    fun caller _ inserted => ?_⟩
  · rw [ready]
    trivial
  · rw [ready] at held
    exact nomatch held
  · rw [absent] at there
    exact nomatch there
  · rw [ready] at inserted
    obtain ⟨_, same⟩ := inserted
    exact nomatch same

/-- **The first writer wins**: at most one caller has reported an insertion, every `get` returns the entry
of that caller, and when all callers have returned there is one. -/
structure FirstWins (os : FileAmbient) (writers : Writers ι) (racing : Racing ι) : Prop where
  once : ∀ caller other, (racing.phase caller).Inserted → (racing.phase other).Inserted →
    caller = other
  served : ∀ caller, (racing.phase caller).Inserted → ∀ process,
    (FileStore.get os writers.key (racing.state.view process)).1 =
      .ok (some (writers.entry caller))
  decided : (∀ caller, ∃ result, racing.phase caller = .done result) →
    ∃ caller, (racing.phase caller).Inserted

/-- **A caller that has found no file inserts**, whatever the others have done since. -/
theorem alone_inserts (faultless : os.Faultless) (writers : Writers ι) (caller : ι)
    {s : SharedDirectory} {nonce : Nat} (counted : s.nonces (writers.process caller) = nonce)
    (fresh : s.files.lookup (writers.temp os caller nonce) = none) :
    ∃ storedBytes after, Alone (writers.move os caller) (.missing, s)
        (.done (.ok ⟨true, storedBytes⟩), after) ∧
      (∀ name, name ≠ writers.final → s.files.lookup name = none → after.files.lookup name = none) ∧
      ∀ process, process ≠ writers.process caller → after.nonces process = s.nonces process := by
  have calm : (writers.ambient os caller).Faultless := faultless
  have alone := alone_missing os writers caller s
  rw [counted, FileStore.writeTemp_ok calm ⟨s.files, (nonce + 1) % 2 ^ 64⟩ writers.final
    (os.seconds nonce) (writers.entry caller) fresh] at alone
  refine ⟨_, _, alone, fun name different absent => ?_, fun process different => ?_⟩
  · show (((s.files.insert _ _).erase _).insert writers.final _).lookup name = none
    rw [AList.lookup_insert_ne different, lookup_erase_eq, lookup_insert_eq]
    split
    case isTrue _ => rfl
    case isFalse _ => exact absent
  · exact Function.update_of_ne different _ _

/-- A caller that finds no file asks for a temporary one. -/
theorem alone_ready (faultless : os.Faultless) (caller : ι) {s : SharedDirectory}
    (absent : s.files.lookup writers.final = none) :
    writers.move os caller .ready s = (.missing, s) := by
  have calm : (writers.ambient os caller).Faultless := faultless
  obtain ⟨error, stat⟩ : ∃ error, (s.view (writers.process caller)).metadata
      (writers.ambient os caller) writers.final = .error error :=
    Directory.metadata_missing calm absent
  simp only [move, stat]

/-- **A caller alone meets the condition.** -/
theorem alone_findsNone (faultless : os.Faultless) {caller : ι} {start racing : Racing ι}
    (starting : Starting writers start)
    (reached : Reaches (Parties.advance (writers.move os)) (fun mover _ => mover = caller) start
      racing) :
    Reaches (Parties.advance (writers.move os)) (FindsNone writers) start racing := by
  refine (reached.restrict (I := fun racing => Orderly os writers racing ∧
    (racing.state.files.lookup writers.final = none ∨ (racing.phase caller).Inserted))
    ⟨starting_orderly starting, .inl starting.2⟩ ?_).1
  rintro mover racing ⟨orderly, absent⟩ rfl
  have none : FindsNone writers mover racing := by
    intro nonce synced
    refine absent.resolve_right ?_
    rintro ⟨bytes, done⟩
    rw [synced] at done
    exact nomatch done
  refine ⟨none, orderly_advance faultless orderly none, ?_⟩
  have step := moved faultless (orderly.own mover) none
  rw [Parties.phase_own, Parties.advance_state]
  rcases absent with absent | inserted
  · cases there : (writers.move os mover (racing.phase mover) racing.state).2.files.lookup
      writers.final with
    | none => exact .inl rfl
    | some file =>
        rcases step.final there with before | ⟨_, inserted⟩
        · rw [absent] at before
          exact nomatch before
        · exact .inr inserted
  · rw [step.stays inserted]
    exact .inr inserted

/-- A process that writes the key `k`. -/
def oneWriter : Writers Unit where
  key := ⟨"k", rfl⟩
  process _ := 7
  entry _ := ⟨⟨[1, 2, 3], 0, true⟩, by constructor <;> simp [u64Max, isizeMax]⟩

/-- The process before it starts, at an empty directory. -/
def oneReady : Racing Unit := ⟨fun _ => .ready, ⟨∅, fun _ => 1⟩⟩

/-- Two processes that write the key `k`. -/
def twoWriters : Writers Bool where
  key := ⟨"k", rfl⟩
  process second := if second then 8 else 7
  entry second :=
    ⟨⟨[if second then 2 else 1], 0, false⟩, by constructor <;> simp [u64Max, isizeMax]⟩

/-- Nobody has started, and the directory is empty. -/
def nobodyYet : Racing Bool := ⟨fun _ => .ready, ⟨∅, fun _ => 1⟩⟩

end Writers

end RivetCache
