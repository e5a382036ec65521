import Tracemark.Analysis.Run
import Tracemark.Proofs.Text.Utf8

/-!
# Which source files are read

A file is read when a sample of its first bytes is a text. The sample is taken
by length, so its end may fall within a character of a file that is a text.
-/

set_option autoImplicit false

namespace Tracemark.Discovery

/-- A sample of a text file is a text unless it ends within a character. -/
theorem isTextSample_take {content : Bytes} {text : List Char}
    (valid : Utf8.decode content = .ok text) (noZero : 0 ∉ content) (size : Nat) :
    isTextSample (content.take size) = !Utf8.cutsCharacter content size := by
  have absent : (content.take size).contains 0 = false := by
    simp only [List.contains_eq_mem, decide_eq_false_iff_not]
    exact fun member => noZero (List.mem_of_mem_take member)
  simp only [isTextSample, absent, Bool.not_false, Bool.true_and]
  exact Utf8.isValid_take valid size

end Tracemark.Discovery

namespace Tracemark.Analysis.Run

/-- A file that is a text as a whole is taken for one, and its content is read,
exactly when its sample does not end within a character. Otherwise it is left out
without a fault. -/
theorem sourceContent_of_text {store : Store} {path : Path} {content : Bytes} {text : List Char}
    (found : store.read path = .ok content) (valid : Utf8.decode content = .ok text)
    (noZero : 0 ∉ content) :
    Discovery.isTextSample (content.take Discovery.textSampleSize) =
        !Utf8.cutsCharacter content Discovery.textSampleSize ∧
      sourceContent store path =
        .ok (if Utf8.cutsCharacter content Discovery.textSampleSize then none
          else some (Utf8.encode (Text.unifyNewlines text))) := by
  have sampled := Discovery.isTextSample_take valid noZero Discovery.textSampleSize
  refine ⟨sampled, ?_⟩
  cases cut : Utf8.cutsCharacter content Discovery.textSampleSize <;>
    simp [sourceContent, found, sampled, cut, valid, bind, Except.bind, pure, Except.pure]

/-- A text whose last character begins with the last byte of the sample is left out. -/
theorem sourceContent_straddling :
    let content : Bytes := List.replicate 2047 0x61 ++ [0xC3, 0xA9]
    let store : Store := ⟨⟨.absolute, []⟩, [(["a.c"], .file content)]⟩
    Utf8.decode content = .ok (List.replicate 2047 'a' ++ ['é']) ∧ 0 ∉ content ∧
      Discovery.isTextSample (content.take Discovery.textSampleSize) = false ∧
      sourceContent store ⟨.absolute, ["a.c"]⟩ = .ok none := by
  intro content store
  have found : store.read ⟨.absolute, ["a.c"]⟩ = .ok content := by rfl
  have valid : Utf8.decode content = .ok (List.replicate 2047 'a' ++ ['é']) := by decide +kernel
  have noZero : 0 ∉ content := by decide +kernel
  have cut : Utf8.cutsCharacter content Discovery.textSampleSize = true := by decide +kernel
  have read := sourceContent_of_text found valid noZero
  rw [cut] at read
  exact ⟨valid, noZero, read.1, read.2⟩

/-! ## Files one after the other -/

/-- A content whose sample is a text though the whole of it is none. -/
def breaksLate (content : Bytes) : Bool :=
  Discovery.isTextSample (content.take Discovery.textSampleSize) && !Utf8.isValid content

/-- The source that a content is read as, with unified line endings; a content that is no text, or
whose sample is none, has no source. -/
def sourceOf? (content : Bytes) : Option Bytes :=
  if Discovery.isTextSample (content.take Discovery.textSampleSize) then
    (Utf8.decode? content).map fun text => Utf8.encode (Text.unifyNewlines text)
  else none

def sources (files : List (Path × Bytes)) : List (Path × Bytes) :=
  files.filterMap fun file => (sourceOf? file.2).map fun source => (file.1, source)

def withSources (session : Session) (language : Language) (run : Run)
    (sources : List (Path × Bytes)) : Run :=
  sources.foldl (fun run source =>
    run.addFile (source.1.absolute session.store.working)
      (session.parser.captures language source.2)) run

section

variable {store : Store} {path : Path} {content : Bytes} (found : store.read path = .ok content)
include found

theorem sourceContent_of_early (early : breaksLate content = false) :
    sourceContent store path = .ok (sourceOf? content) := by
  cases isText : Discovery.isTextSample (content.take Discovery.textSampleSize) with
  | false => simp [sourceContent, sourceOf?, found, isText, bind, Except.bind, pure, Except.pure]
  | true =>
      have valid : Utf8.isValid content = true := by simpa [breaksLate, isText] using early
      obtain ⟨text, decoded⟩ := Option.isSome_iff_exists.mp valid
      have isOk := Result.eq_ok_of_toOption decoded
      simp [sourceContent, sourceOf?, found, isText, isOk, decoded, bind, Except.bind, pure,
        Except.pure]

theorem sourceContent_of_late (late : breaksLate content = true) :
    ∃ cause, sourceContent store path = .error (.undecodable cause) ∧
      Utf8.decode content = .error cause ∧ Discovery.textSampleSize ≤ cause.start := by
  simp only [breaksLate, Bool.and_eq_true, Bool.not_eq_true'] at late
  obtain ⟨isText, invalid⟩ := late
  rw [Utf8.isValid_eq_isOk] at invalid
  cases decoded : Utf8.decode content with
  | ok text =>
      rw [decoded] at invalid
      cases invalid
  | error cause =>
      have sample := isText
      simp only [Discovery.isTextSample, Bool.and_eq_true] at sample
      refine ⟨cause, ?_, rfl, Utf8.le_start_of_decode sample.2 decoded⟩
      simp [sourceContent, found, isText, decoded, bind, Except.bind, throw, throwThe,
        MonadExceptOf.throw]

end

theorem withSources_cons (session : Session) (language : Language) (run : Run) (file : Path × Bytes)
    (files : List (Path × Bytes)) :
    withSources session language run (sources (file :: files)) =
      withSources session language (withSources session language run (sources [file]))
        (sources files) := by
  have divided : sources (file :: files) = sources [file] ++ sources files := by
    rw [sources, sources, sources, ← List.filterMap_append, List.singleton_append]
  rw [divided, withSources, List.foldl_append]
  rfl

theorem collect_cons_of_early {session : Session} {language : Language} {path : Path}
    {content : Bytes} (found : session.store.read path = .ok content)
    (early : breaksLate content = false) (run : Run) (rest : List Path) :
    run.collect session language (path :: rest) =
      collect session language (withSources session language run (sources [(path, content)])) rest := by
  have comments : fileComments session language path = _ :=
    congrArg (· >>= _) (sourceContent_of_early found early)
  rw [collect, comments]
  cases isSource : sourceOf? content with
  | none => simp [sources, withSources, isSource, addFile, bind, Except.bind, pure, Except.pure]
  | some source => simp [sources, withSources, isSource, bind, Except.bind, pure, Except.pure]

/-- Collecting takes the comments of all files up to the first that breaks late, and ends in a fault
there. Other files that are no texts are left out, and the files after them are still read. -/
theorem collect_of_contents {session : Session} {language : Language} {files : List (Path × Bytes)}
    (existing : ∀ file ∈ files, session.store.read file.1 = .ok file.2) (run : Run) :
    let collected := run.collect session language (files.map Prod.fst)
    (collected.2 = none ↔ ∀ file ∈ files, breaksLate file.2 = false) ∧
      collected.1 = withSources session language run
        (sources (files.takeWhile fun file => !breaksLate file.2)) ∧
      ∀ fault, collected.2 = some fault → ∃ file cause,
        files.find? (fun file => breaksLate file.2) = some file ∧
          Utf8.decode file.2 = .error cause ∧ fault = .undecodable cause ∧
          Discovery.textSampleSize ≤ cause.start := by
  intro collected
  induction files generalizing run with
  | nil => simp [collected, collect, sources, withSources]
  | cons file rest ih =>
      obtain ⟨found, others⟩ := List.forall_mem_cons.mp existing
      cases breaks : breaksLate file.2 with
      | true =>
          obtain ⟨cause, refused, decoded, late⟩ := sourceContent_of_late found breaks
          have stops : collected = (run, some (.undecodable cause)) := by
            simp [collected, collect, fileComments, refused, bind, Except.bind]
          simp [stops, breaks, sources, withSources, decoded, late]
      | false =>
          have next : collected = collect session language
              (withSources session language run (sources [file])) (rest.map Prod.fst) :=
            collect_cons_of_early found breaks run _
          obtain ⟨faultless, gathered, faults⟩ :=
            ih others (withSources session language run (sources [file]))
          rw [next, List.takeWhile_cons_of_pos (by simp [breaks]),
            List.find?_cons_of_neg (by simp [breaks]), List.forall_mem_cons]
          exact ⟨faultless.trans (and_iff_right breaks).symm,
            gathered.trans (withSources_cons ..).symm, faults⟩

/-- A file that is no text from its first byte on is left out. One that is no text after its sample
ends the collection, and the comment of the file after it is lost. -/
theorem collect_of_late_byte :
    let binary : Path × Bytes := (⟨.absolute, ["a.c"]⟩, [0xFF])
    let late : Path × Bytes := (⟨.absolute, ["b.c"]⟩, List.replicate 2048 0x61 ++ [0xFF])
    let commented : Path × Bytes := (⟨.absolute, ["c.c"]⟩, [0x2F, 0x2F])
    let session : Session :=
      ⟨⟨⟨.absolute, []⟩, [binary, late, commented].map fun file => (file.1.parts, .file file.2)⟩,
        .knowing [(commented.2, .mk "translation_unit" 0 2 [.mk "comment" 0 2 []])], []⟩
    let run : Run := ⟨"p", {}, none, none, none, [], [], [], [], [], [], []⟩
    let collected (files : List (Path × Bytes)) :=
      run.collect session .cpp (files.map Prod.fst)
    (collected [binary, commented]).2 = none ∧
      (collected [binary, commented]).1.files = [(commented.1, 1)] ∧
      (collected [binary, late, commented]).2 = some (.undecodable (.badStart 2048 0xFF)) ∧
      (collected [binary, late, commented]).1.files = [] := by
  intro binary late commented session run collected
  have applied := fun (files : List (Path × Bytes))
      (existing : ∀ file ∈ files, session.store.read file.1 = .ok file.2) =>
    @collect_of_contents session .cpp files existing run
  have inBinary : breaksLate binary.2 = false := by decide +kernel
  have inLate : breaksLate late.2 = true := by decide +kernel
  have inCommented : breaksLate commented.2 = false := by decide +kernel
  obtain ⟨faultless, gathered, _⟩ := applied [binary, commented]
    (by simp only [List.forall_mem_cons]; exact ⟨rfl, rfl, nofun⟩)
  obtain ⟨faulty, kept, faults⟩ := applied [binary, late, commented]
    (by simp only [List.forall_mem_cons]; exact ⟨rfl, rfl, rfl, nofun⟩)
  refine ⟨faultless.mpr (by simp [inBinary, inCommented]), ?_, ?_, ?_⟩
  · simp only [collected, gathered]
    decide +kernel
  · cases isFault : (collected [binary, late, commented]).2 with
    | none => exact absurd (faulty.mp isFault late (by simp)) (by simp [inLate])
    | some fault =>
        obtain ⟨file, cause, isFirst, decoded, rfl, _⟩ := faults fault isFault
        simp only [List.find?, inBinary, inLate, Option.some.injEq] at isFirst
        rw [← isFirst] at decoded
        have refused : Utf8.decode late.2 = .error (.badStart 2048 0xFF) := by decide +kernel
        rw [Except.error.inj (refused.symm.trans decoded)]
  · simp only [collected, kept, List.takeWhile, inBinary, inLate, Bool.not_true, Bool.not_false]
    decide +kernel

end Tracemark.Analysis.Run
