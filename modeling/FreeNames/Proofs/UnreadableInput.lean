import FreeNames.Proofs.ScanResults

/-!
# Input that cannot be read

A run that is to scan a file has to read it first. Nothing at the path, or a folder, is reported: one line of
errors, no report, exit code 1. So should be a file that holds no text. But bytes that are not the UTF-8 form of
any text end the run without an exit code and without a word, and so does a path that cannot be looked up. These
are the only inputs that do (`reading_reported_iff`); whichever flags a scan has makes no difference to it.
-/

namespace FreeNames.CommandLine

/-- The run ended while its input was read, without an exit code. -/
def Ending.isUnreported : Ending → Bool
  | undecodable | refusedPath _ => true
  | exit _ | trouble _ => false

/-- What a run does that reports why there is nothing to scan: it writes one line of errors and no report, and
ends with exit code 1. -/
structure Result.ReportsError (r : Result) : Prop where
  ending : r.ending = .exit 1
  out : r.out = ""
  err : ∃ reason : Text, r.err = unlines ["ERROR: " ++ reason]

/-- Reading does not end the run without an exit code, and input without a text is reported. -/
structure ReportsReading (read : Reader) (folder : Folder) (argv : List String) : Prop where
  ending : (run read folder argv).ending.isUnreported = false
  unread : ∀ verbose args, invocation argv = .scan verbose args → (folder.find args.input).2.text? = none →
    (run read folder argv).ReportsError

/-- The input is a path that cannot be looked up, or a file whose bytes are not the UTF-8 form of a text. -/
inductive Input.Escapes : Input → Prop where
  | path (fault : PathFault) : Escapes (.refused fault)
  | bytes {bytes : ByteArray} (h : ¬ bytes.IsValidUTF8) : Escapes (.file bytes)

/-! ### Bytes and texts -/

theorem textOf_eq_none_iff {bytes : ByteArray} : textOf bytes = none ↔ ¬ bytes.IsValidUTF8 := by
  simp [textOf, String.fromUTF8?]

/-- The UTF-8 form of a text is read as the text, but for its line ends. -/
theorem textOf_utf8Encode (chars : List Char) :
    textOf chars.utf8Encode = some (String.ofList (textOf.plainLineEnds chars)) := by
  have hvalid : chars.utf8Encode.IsValidUTF8 := ⟨chars, rfl⟩
  have htext : String.fromUTF8 chars.utf8Encode hvalid = String.ofList chars := rfl
  simp [textOf, String.fromUTF8?, hvalid, htext]

/-! ### What a scan does with its input -/

section

variable {read : Reader} {verbose : Bool} {args : ScanArguments} {path : String} {input : Input}

/-- Where there is no text, nothing can be read or the input escapes. -/
theorem Input.isUnread_or_escapes (h : input.text? = none) : input.IsUnread ∨ input.Escapes := by
  cases input with
  | missing => exact .inl (.inl rfl)
  | unreadable reason => exact .inl (.inr ⟨reason, rfl⟩)
  | refused fault => exact .inr (.path fault)
  | file bytes => exact .inr (.bytes (textOf_eq_none_iff.mp h))

theorem reportsError_of_isUnread (h : input.IsUnread) :
    (scan read verbose args path input).ReportsError := by
  rcases h with rfl | ⟨reason, rfl⟩
  · exact ⟨rfl, rfl, "Input file not found: " ++ (path : Text), by simp only [scan]; rfl⟩
  · exact ⟨rfl, rfl, "Failed to read " ++ (path : Text) ++ ": " ++ reason, by simp only [scan]; rfl⟩

/-- Input that escapes ends the scan before anything is written. -/
theorem scan_of_escapes (h : input.Escapes) :
    ∃ ending : Ending, ending.isUnreported ∧ scan read verbose args path input = ⟨ending, "", ""⟩ := by
  cases h with
  | path fault => exact ⟨.refusedPath fault, rfl, rfl⟩
  | bytes hbytes => exact ⟨.undecodable, rfl, by simp only [scan, textOf_eq_none_iff.mpr hbytes]⟩

/-- Once there is a text, the scan ends with an exit code or with trouble in it. -/
theorem isUnreported_scanText (text : String) :
    (scanText read verbose args path text).ending.isUnreported = false := by
  unfold scanText
  simp only
  split
  · rfl
  · rfl
  · split <;> rfl

theorem isUnreported_scan_iff : (scan read verbose args path input).ending.isUnreported ↔ input.Escapes := by
  constructor
  · intro h
    cases htext : input.text? with
    | some text =>
      obtain ⟨bytes, rfl, hbytes⟩ := Input.exists_of_text? htext
      simp [scan, hbytes, isUnreported_scanText] at h
    | none =>
      rcases Input.isUnread_or_escapes htext with hunread | hescapes
      · have hending : (scan read verbose args path input).ending = .exit 1 :=
          (reportsError_of_isUnread hunread).ending
        simp [hending, Ending.isUnreported] at h
      · exact hescapes
  · intro h
    obtain ⟨ending, hending, hscan⟩ := scan_of_escapes h
    rw [hscan]
    exact hending

end

/-! ### What a run does with its input -/

theorem Invocation.isUnreported_answer (i : Invocation) : i.answer.ending.isUnreported = false := by
  cases i <;> rfl

section

variable {read : Reader} {folder : Folder} {argv : List String}

theorem run_of_scan {verbose : Bool} {args : ScanArguments} (h : invocation argv = .scan verbose args) :
    run read folder argv =
      scan read verbose args (folder.find args.input).1 (folder.find args.input).2 := by
  simp only [run, h]

theorem isUnreported_run_iff :
    (run read folder argv).ending.isUnreported ↔
      ∃ verbose args, invocation argv = .scan verbose args ∧ (folder.find args.input).2.Escapes := by
  cases h : invocation argv with
  | scan verbose args =>
    rw [run_of_scan h, isUnreported_scan_iff]
    constructor
    · exact fun hescapes => ⟨verbose, args, rfl, hescapes⟩
    · rintro ⟨_, _, heq, hescapes⟩
      obtain ⟨rfl, rfl⟩ := Invocation.scan.inj heq
      exact hescapes
  | _ => simp [run, h, Invocation.isUnreported_answer]

end

/-- **Which input goes unreported.** Reading is reported as it should be if and only if the run is not to scan
input that escapes. Such input ends the run before anything is written, and with any other flags it would do so
too. A file with the UTF-8 form of a text is never among it: the text is scanned, with plain line ends. -/
theorem reading_reported_iff (read : Reader) (folder : Folder) (argv : List String) :
    (ReportsReading read folder argv ↔
      ∀ verbose args, invocation argv = .scan verbose args → ¬ (folder.find args.input).2.Escapes) ∧
    ∀ verbose args path input, invocation argv = .scan verbose args → folder.find args.input = (path, input) →
      (input.IsUnread → (run read folder argv).ReportsError) ∧
      (input.Escapes → ∃ ending : Ending, ending.isUnreported ∧ run read folder argv = ⟨ending, "", ""⟩) ∧
      (input.text? = none → ∀ (read' : Reader) (verbose' : Bool) (args' : ScanArguments),
        scan read' verbose' args' path input = run read folder argv) ∧
      ∀ chars : List Char, input = .file chars.utf8Encode →
        run read folder argv = scanText read verbose args path (String.ofList (textOf.plainLineEnds chars)) := by
  constructor
  · constructor
    · intro h verbose args hscan hescapes
      have hunreported : (run read folder argv).ending.isUnreported :=
        isUnreported_run_iff.mpr ⟨verbose, args, hscan, hescapes⟩
      exact Bool.false_ne_true (h.ending.symm.trans hunreported)
    · intro h
      refine ⟨?_, fun verbose args hscan htext => ?_⟩
      · rw [← Bool.not_eq_true, isUnreported_run_iff]
        rintro ⟨verbose, args, hscan, hescapes⟩
        exact h verbose args hscan hescapes
      · rw [run_of_scan hscan]
        exact reportsError_of_isUnread
          ((Input.isUnread_or_escapes htext).resolve_right (h verbose args hscan))
  · intro verbose args path input hscan hfind
    have hrun : run read folder argv = scan read verbose args path input := by rw [run_of_scan hscan, hfind]
    rw [hrun]
    refine ⟨reportsError_of_isUnread, scan_of_escapes, fun htext read' verbose' args' => ?_, ?_⟩
    · cases input with
      | file bytes =>
        have hbytes : textOf bytes = none := htext
        simp only [scan, hbytes]
      | _ => rfl
    · rintro chars rfl
      simp only [scan, textOf_utf8Encode]

/-- The topmost folder, with one file that holds the byte `ff`. -/
def byteFolder : Folder := ⟨"", [("a", some ⟨#[0xff]⟩)]⟩

/-- What a scan is asked for by an invocation. -/
def Invocation.arguments? : Invocation → Option (Bool × ScanArguments)
  | scan verbose args => some (verbose, args)
  | _ => none

theorem Invocation.eq_scan_of_arguments? {i : Invocation} {verbose : Bool} {args : ScanArguments}
    (h : i.arguments? = some (verbose, args)) : i = .scan verbose args := by
  cases i with
  | scan => simpa [arguments?] using h
  | _ => cases h

/-- The bytes found at a path, where there is a file or nothing at all. -/
def Input.found? : Input → Option (Option (Array UInt8))
  | missing => some none
  | file bytes => some (some bytes.data)
  | _ => none

theorem Input.eq_of_found? {i j : Input} (hsome : i.found?.isSome) (h : i.found? = j.found?) : i = j := by
  cases i <;> cases j <;> simp_all [found?, ByteArray.ext_iff]

/-- The arguments of a plain scan. -/
def plainArguments (input : String) : ScanArguments := ⟨input, false, false, false, false, []⟩

/-- A file that is not there is reported. -/
theorem reading_reported_iff_byteFolder :
    invocation ["scan", "b"] = .scan false (plainArguments "b") ∧ byteFolder.find "b" = ("/b", .missing) ∧
      ReportsReading Grammar.read byteFolder ["scan", "b"] ∧
      (run Grammar.read byteFolder ["scan", "b"]).ReportsError := by
  have hscan : invocation ["scan", "b"] = .scan false (plainArguments "b") :=
    Invocation.eq_scan_of_arguments? (by decide +kernel)
  have hfind : byteFolder.find "b" = ("/b", .missing) :=
    Prod.ext (by decide +kernel) (Input.eq_of_found? (by decide +kernel) (by decide +kernel))
  obtain ⟨hiff, hcases⟩ := reading_reported_iff Grammar.read byteFolder ["scan", "b"]
  refine ⟨hscan, hfind, hiff.mpr fun verbose args h => ?_, (hcases _ _ _ _ hscan hfind).1 (.inl rfl)⟩
  obtain ⟨rfl, rfl⟩ := Invocation.scan.inj (hscan.symm.trans h)
  rw [plainArguments, hfind]
  rintro ⟨⟩

/-- A file without a text is not reported. -/
theorem byteFolder_not_reportsReading : ¬ ReportsReading Grammar.read byteFolder ["scan", "a"] := by
  have hscan : invocation ["scan", "a"] = .scan false (plainArguments "a") :=
    Invocation.eq_scan_of_arguments? (by decide +kernel)
  have hfind : byteFolder.find "a" = ("/a", .file ⟨#[0xff]⟩) :=
    Prod.ext (by decide +kernel) (Input.eq_of_found? (by decide +kernel) (by decide +kernel))
  have hescapes : (byteFolder.find (plainArguments "a").input).2.Escapes := by
    rw [plainArguments, hfind]
    exact .bytes (by decide +kernel)
  intro h
  have hunreported : (run Grammar.read byteFolder ["scan", "a"]).ending.isUnreported :=
    isUnreported_run_iff.mpr ⟨false, plainArguments "a", hscan, hescapes⟩
  exact Bool.false_ne_true (h.ending.symm.trans hunreported)

end FreeNames.CommandLine
