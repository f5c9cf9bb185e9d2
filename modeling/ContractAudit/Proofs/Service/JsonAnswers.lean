import ContractAudit.Proofs.Service.Audits
import ContractAudit.Proofs.SizeLimit
import Mathlib

/-!
# What a JSON body is answered with

A JSON body is judged in a fixed order: whether there is a source, whether the mode is known,
whether the source is blank, whether it is within the limits. The first check that fails decides on
the answer, and if none fails there is a report.

* **What can come of a value.** `Judged` lists the results, each with all that holds where it is
  one, and `Host.IsPlain.judged_auditJson` shows that there is no other. With the built-in detectors
  none of them is a failure of the service.
* **Telling the answers apart.** Answers of one status differ in the first character of what they
  say (`Response.mark`), so the answer shows which check failed.

A JSON text is not always read as the value that it writes. One with a number of too many digits
counts as none at all, so that its source is missing, and one whose lists are too deep is a failure
of the service (`Host.analyze_unread_bodies`). The table is about the values that are read.

Main result: `Host.analyze_isTabled`.
-/

namespace ContractAudit.Service

open Http Json

/-! ## What a value submits -/

/-- The value is an object with a string for its source. -/
def HasSource (value : Option Value) (source : Str) : Prop :=
  value.bind (·.get? "source") = some (.string source)

/-- What the value says of the mode. -/
def askedMode (value : Option Value) : Value := (value.bind (·.get? "mode")).getD .null

/-- The value in words, without white space around it and in lower case. -/
def inWords (asked : Value) : String :=
  String.ofList ((Text.trim asked.display.toList).map Char.toLower)

/-- A mode is asked for by what is no name of one. -/
def AsksUnknownMode (asked : Value) : Prop :=
  asked.isFalsy = false ∧ ∀ mode : ScanMode, inWords asked ≠ mode.name

/-- The mode that is asked for, or the configured one where none is. -/
def AsksMode (configured : ScanMode) (asked : Value) (mode : ScanMode) : Prop :=
  if asked.isFalsy then mode = configured else inWords asked = mode.name

/-- The source takes too many octets, or has a line of too many characters. -/
def IsTooLarge (bytes lineChars : Int) (source : List Char) : Prop :=
  bytes < (Text.Utf8.encode source).length ∨ ∃ line ∈ parts source, lineChars < line.length

/-! ## Judging a value -/

/-- A host with the built-in detectors, whole limits and a configured mode that is known. -/
structure Host.IsPlain (host : Host) (bytes lineChars : Int) (configured : ScanMode) : Prop where
  detectors : host.detectors = Detector.builtin
  bytes : host.settings.maxSourceBytes = .int bytes
  lineChars : host.settings.maxLineChars = .int lineChars
  mode : ScanMode.ofValue? host.settings.scanMode = some configured

/-- What can come of a JSON value, and when. -/
inductive Judged (bytes lineChars : Int) (configured : ScanMode) (value : Option Value) :
    Except Failure Audit → Prop
  | noSource (hsource : ∀ s, ¬HasSource value s) :
    Judged bytes lineChars configured value (.error .missingSource)
  | unknownMode {s : Str} (hsource : HasSource value s)
    (hmode : AsksUnknownMode (askedMode value)) :
    Judged bytes lineChars configured value (.error (.unknownMode (askedMode value)))
  | unpaired {points : List Nat} (hsource : HasSource value (.unpaired points))
    (hmode : ¬AsksUnknownMode (askedMode value)) :
    Judged bytes lineChars configured value (.error (.unpairedSurrogate points))
  | blank {text : String} (hsource : HasSource value (.text text))
    (hmode : ¬AsksUnknownMode (askedMode value)) (hblank : Text.isAllBlank text.toList = true) :
    Judged bytes lineChars configured value (.error .emptySource)
  | tooLarge {text : String} {cause : Rejection} (hsource : HasSource value (.text text))
    (hmode : ¬AsksUnknownMode (askedMode value)) (hblank : Text.isAllBlank text.toList = false)
    (hsize : IsTooLarge bytes lineChars text.toList) :
    Judged bytes lineChars configured value (.error (.rejected cause))
  | audited {text : String} {mode : ScanMode} {report : Report}
    (hsource : HasSource value (.text text)) (hmode : ¬AsksUnknownMode (askedMode value))
    (hblank : Text.isAllBlank text.toList = false)
    (hsize : ¬IsTooLarge bytes lineChars text.toList)
    (hasks : AsksMode configured (askedMode value) mode)
    (hreport : analyze text.toList mode = .ok report) :
    Judged bytes lineChars configured value (.ok ⟨report, nameOf text.toList⟩)

theorem ofValue?_eq_some_iff {asked : Value} {mode : ScanMode} :
    ScanMode.ofValue? asked = some mode ↔ inWords asked = mode.name :=
  ScanMode.ofName?_eq_some_iff

theorem Host.mode_eq_error (host : Host) {asked : Value} (h : AsksUnknownMode asked) :
    host.mode asked = .error (.unknownMode asked) := by
  have hnone : ScanMode.ofValue? asked = none := by
    rw [Option.eq_none_iff_forall_ne_some]
    exact fun mode hmode => h.2 mode (ofValue?_eq_some_iff.1 hmode)
  have hchosen : host.settings.chooseMode asked = asked := by
    rw [Settings.chooseMode, h.1]
    rfl
  rw [Host.mode]
  simp only [hchosen, hnone]

section Judging

variable {host : Host} {bytes lineChars : Int} {configured : ScanMode}
  (hhost : host.IsPlain bytes lineChars configured)
include hhost

theorem Host.IsPlain.exists_mode {asked : Value} (h : ¬AsksUnknownMode asked) :
    ∃ mode, AsksMode configured asked mode ∧ host.mode asked = .ok mode := by
  simp only [Host.mode_eq_ok_iff, AsksMode, Settings.chooseMode]
  cases hfalsy : asked.isFalsy with
  | true => exact ⟨configured, rfl, hhost.mode⟩
  | false =>
    simp only [AsksUnknownMode, hfalsy, true_and, not_forall, not_not] at h
    obtain ⟨mode, hmode⟩ := h
    exact ⟨mode, hmode, ofValue?_eq_some_iff.2 hmode⟩

theorem Host.IsPlain.enforceSizeLimit_eq_ok_iff {source : List Char} :
    enforceSizeLimit host.settings.maxSourceBytes host.settings.maxLineChars source = .ok source ↔
      ¬IsTooLarge bytes lineChars source := by
  rw [hhost.bytes, hhost.lineChars, enforceSizeLimit_int_eq_ok_iff, IsTooLarge]
  push Not
  simp

/-- The limits are looked at before the detectors run, so an excess is what is reported. -/
theorem Host.IsPlain.exists_rejection {source : List Char} (mode : ScanMode)
    (hsize : IsTooLarge bytes lineChars source) :
    ∃ cause, host.audit source mode = .error (.rejected cause) := by
  have hlimit := mt hhost.enforceSizeLimit_eq_ok_iff.1 (not_not.2 hsize)
  cases hresult : enforceSizeLimit host.settings.maxSourceBytes host.settings.maxLineChars
      source with
  | ok text =>
    -- a source that is let through is let through unchanged
    obtain ⟨-, -, rfl⟩ := ContractAudit.enforceSizeLimit_eq_ok_iff.1 hresult
    exact absurd hresult hlimit
  | error cause =>
    refine ⟨cause, ?_⟩
    rw [Host.audit, Host.auditIn, hresult]
    rfl

/-- A text in a known mode is refused for one of two reasons or audited. -/
theorem Host.IsPlain.judged_auditText {value : Option Value} {text : String} {mode : ScanMode}
    (hsource : HasSource value (.text text)) (hmode : ¬AsksUnknownMode (askedMode value))
    (hasks : AsksMode configured (askedMode value) mode) :
    Judged bytes lineChars configured value (host.auditText text.toList mode) := by
  unfold Host.auditText
  by_cases hblank : Text.isAllBlank text.toList = true
  · rw [if_pos hblank]
    exact .blank hsource hmode hblank
  rw [if_neg hblank]
  rw [Bool.not_eq_true] at hblank
  by_cases hsize : IsTooLarge bytes lineChars text.toList
  · obtain ⟨cause, haudit⟩ := hhost.exists_rejection mode hsize
    rw [haudit]
    exact .tooLarge hsource hmode hblank hsize
  · have hlimit := hhost.enforceSizeLimit_eq_ok_iff.2 hsize
    obtain ⟨report, hreport, haudit⟩ := host.exists_audit hhost.detectors mode hlimit
    rw [haudit]
    exact .audited hsource hmode hblank hsize hasks hreport

theorem Host.IsPlain.judged_auditJson (value : Option Value) :
    Judged bytes lineChars configured value (host.auditJson value) := by
  by_cases hnone : ∀ s, ¬HasSource value s
  · have haudit : host.auditJson value = .error .missingSource := by
      unfold Host.auditJson
      split
      · rename_i s hs
        exact absurd hs (hnone s)
      · rfl
    rw [haudit]
    exact .noSource hnone
  simp only [not_forall, not_not] at hnone
  obtain ⟨s, hsource⟩ := hnone
  have haudit := host.auditJson_eq hsource
  rw [haudit, ← askedMode]
  -- the mode comes before the text, so a source with a surrogate may be refused for its mode
  by_cases hmode : AsksUnknownMode (askedMode value)
  · rw [host.mode_eq_error hmode]
    exact .unknownMode hsource hmode
  · obtain ⟨mode, hasks, hknown⟩ := hhost.exists_mode hmode
    rw [hknown]
    cases s with
    | text text => exact hhost.judged_auditText hsource hmode hasks
    | unpaired points => exact .unpaired hsource hmode

end Judging

/-! ## Telling the answers apart -/

/-- What an answer is known by: its status, and the first character of what it says is wrong. -/
def Response.mark (answer : Response) : Nat × Option Char :=
  (answer.status, match answer.body with
    | some (.object ((_, .string (.text message)) :: _)) => message.toList.head?
    | _ => none)

theorem head?_toList_append {s t : String} {c : Char} (h : s.toList.head? = some c) :
    (s ++ t).toList.head? = some c := by
  rw [String.toList_append, List.head?_append, h, Option.some_or]

theorem mark_unknownMode (asked : Value) :
    (Response.ofAudit (.error (.unknownMode asked))).mark = (400, some 'U') := by
  have hhead : (unknownModeMessage asked).toList.head? = some 'U' := by
    unfold unknownModeMessage
    iterate 6 apply head?_toList_append
    rfl
  exact Prod.ext rfl hhead

theorem mark_unpairedSurrogate (points : List Nat) :
    (Response.ofAudit (.error (.unpairedSurrogate points))).mark = (400, some '\'') := by
  have hhead : (surrogateMessage points).toList.head? = some '\'' := by
    unfold surrogateMessage
    iterate 2 apply head?_toList_append
    rfl
  exact Prod.ext rfl hhead

theorem mark_missingSource :
    (Response.ofAudit (.error .missingSource)).mark = (400, some 'P') := by rfl

theorem mark_emptySource : (Response.ofAudit (.error .emptySource)).mark = (400, some 'S') := by rfl

theorem Response.ne_of_mark {a b : Response} {m n : Nat × Option Char} (ha : a.mark = m)
    (hb : b.mark = n) (hmn : m ≠ n) : a ≠ b := by
  rintro rfl
  exact hmn (ha.symm.trans hb)

theorem Response.ne_error {answer : Response} {message : String} (h : answer.status ≠ 400) :
    answer ≠ .error 400 message := by
  rintro rfl
  exact h rfl

/-! ## The table -/

/-- The answers to a JSON value, each under the condition that none of those above it applies. -/
structure IsTabled (bytes lineChars : Int) (configured : ScanMode) (value : Option Value)
    (answer : Response) : Prop where
  missing : answer = .error 400 (Failure.message .missingSource) ↔ ∀ s, ¬HasSource value s
  unknownMode : ∀ s, HasSource value s →
    (answer = .error 400 (unknownModeMessage (askedMode value)) ↔
      AsksUnknownMode (askedMode value))
  empty : ∀ text, HasSource value (.text text) → ¬AsksUnknownMode (askedMode value) →
    (answer = .error 400 (Failure.message .emptySource) ↔ Text.isAllBlank text.toList = true)
  tooLarge : ∀ text, HasSource value (.text text) → ¬AsksUnknownMode (askedMode value) →
    Text.isAllBlank text.toList = false →
    (answer.status = 413 ↔ IsTooLarge bytes lineChars text.toList)
  report : ∀ text, HasSource value (.text text) → ¬AsksUnknownMode (askedMode value) →
    Text.isAllBlank text.toList = false → ¬IsTooLarge bytes lineChars text.toList →
    ∃ mode report, AsksMode configured (askedMode value) mode ∧
      analyze text.toList mode = .ok report ∧
      answer = ⟨200, some (Audit.toValue ⟨report, nameOf text.toList⟩)⟩
  notInternal : answer.status ≠ 500

theorem HasSource.unique {value : Option Value} {s t : Str} (hs : HasSource value s)
    (ht : HasSource value t) : s = t := by
  have h : some (Value.string s) = some (Value.string t) := hs.symm.trans ht
  simpa using h

namespace Judged

variable {bytes lineChars : Int} {configured : ScanMode} {value : Option Value}
  {result : Except Failure Audit} (h : Judged bytes lineChars configured value result)
include h

/-! ### Rows about the value -/

theorem missing_iff : Response.ofAudit result = .error 400 (Failure.message .missingSource) ↔
    ∀ s, ¬HasSource value s := by
  cases h with
  | noSource hnone => exact iff_of_true rfl hnone
  | unknownMode hs _ =>
    refine iff_of_false ?_ fun hnone => hnone _ hs
    exact Response.ne_of_mark (mark_unknownMode _) mark_missingSource (by decide)
  | unpaired hs _ =>
    refine iff_of_false ?_ fun hnone => hnone _ hs
    exact Response.ne_of_mark (mark_unpairedSurrogate _) mark_missingSource (by decide)
  | blank hs _ _ =>
    refine iff_of_false ?_ fun hnone => hnone _ hs
    exact Response.ne_of_mark mark_emptySource mark_missingSource (by decide)
  | tooLarge hs _ _ _ =>
    exact iff_of_false (Response.ne_error (by decide : 413 ≠ 400)) fun hnone => hnone _ hs
  | audited hs _ _ _ _ _ =>
    exact iff_of_false (Response.ne_error (by decide : 200 ≠ 400)) fun hnone => hnone _ hs

theorem unknownMode_iff {s : Str} (hs : HasSource value s) :
    Response.ofAudit result = .error 400 (unknownModeMessage (askedMode value)) ↔
      AsksUnknownMode (askedMode value) := by
  cases h with
  | noSource hnone => exact absurd hs (hnone s)
  | unknownMode _ hunknown => exact iff_of_true rfl hunknown
  | unpaired _ hmode =>
    refine iff_of_false ?_ hmode
    exact Response.ne_of_mark (mark_unpairedSurrogate _) (mark_unknownMode _) (by decide)
  | blank _ hmode _ =>
    refine iff_of_false ?_ hmode
    exact Response.ne_of_mark mark_emptySource (mark_unknownMode _) (by decide)
  | tooLarge _ hmode _ _ =>
    exact iff_of_false (Response.ne_error (by decide : 413 ≠ 400)) hmode
  | audited _ hmode _ _ _ _ =>
    exact iff_of_false (Response.ne_error (by decide : 200 ≠ 400)) hmode

theorem not_internal : (Response.ofAudit result).status ≠ 500 := by
  cases h with
  | noSource _ => exact (by decide : 400 ≠ 500)
  | unknownMode _ _ => exact (by decide : 400 ≠ 500)
  | unpaired _ _ => exact (by decide : 400 ≠ 500)
  | blank _ _ _ => exact (by decide : 400 ≠ 500)
  | tooLarge _ _ _ _ => exact (by decide : 413 ≠ 500)
  | audited _ _ _ _ _ _ => exact (by decide : 200 ≠ 500)

/-! ### Rows about the text -/

/-- A text in a known mode is blank, too large or audited. -/
theorem cases_of_text {text : String} (hs : HasSource value (.text text))
    (hmode : ¬AsksUnknownMode (askedMode value)) :
    (Text.isAllBlank text.toList = true ∧ result = .error .emptySource) ∨
    (Text.isAllBlank text.toList = false ∧ IsTooLarge bytes lineChars text.toList ∧
      ∃ cause, result = .error (.rejected cause)) ∨
    (Text.isAllBlank text.toList = false ∧ ¬IsTooLarge bytes lineChars text.toList ∧
      ∃ mode report, AsksMode configured (askedMode value) mode ∧
        analyze text.toList mode = .ok report ∧ result = .ok ⟨report, nameOf text.toList⟩) := by
  cases h with
  | noSource hnone => exact absurd hs (hnone _)
  | unknownMode _ hunknown => exact absurd hunknown hmode
  | unpaired hs' _ => exact nomatch hs.unique hs'
  | blank hs' _ hblank =>
    obtain rfl := Str.text.inj (hs.unique hs')
    exact .inl ⟨hblank, rfl⟩
  | tooLarge hs' _ hblank hsize =>
    obtain rfl := Str.text.inj (hs.unique hs')
    exact .inr (.inl ⟨hblank, hsize, _, rfl⟩)
  | audited hs' _ hblank hsize hasks hreport =>
    obtain rfl := Str.text.inj (hs.unique hs')
    exact .inr (.inr ⟨hblank, hsize, _, _, hasks, hreport, rfl⟩)

theorem empty_iff {text : String} (hs : HasSource value (.text text))
    (hmode : ¬AsksUnknownMode (askedMode value)) :
    Response.ofAudit result = .error 400 (Failure.message .emptySource) ↔
      Text.isAllBlank text.toList = true := by
  rcases h.cases_of_text hs hmode with
    ⟨hblank, rfl⟩ | ⟨hblank, -, cause, rfl⟩ | ⟨hblank, -, mode, report, -, -, rfl⟩
  · exact iff_of_true rfl hblank
  · exact iff_of_false (Response.ne_error (by decide : 413 ≠ 400)) (by simp [hblank])
  · exact iff_of_false (Response.ne_error (by decide : 200 ≠ 400)) (by simp [hblank])

theorem tooLarge_iff {text : String} (hs : HasSource value (.text text))
    (hmode : ¬AsksUnknownMode (askedMode value)) (hfull : Text.isAllBlank text.toList = false) :
    (Response.ofAudit result).status = 413 ↔ IsTooLarge bytes lineChars text.toList := by
  rcases h.cases_of_text hs hmode with
    ⟨hblank, rfl⟩ | ⟨-, hsize, cause, rfl⟩ | ⟨-, hsize, mode, report, -, -, rfl⟩
  · exact absurd (hfull.symm.trans hblank) Bool.false_ne_true
  · exact iff_of_true rfl hsize
  · exact iff_of_false (by decide : 200 ≠ 413) hsize

theorem exists_report {text : String} (hs : HasSource value (.text text))
    (hmode : ¬AsksUnknownMode (askedMode value)) (hfull : Text.isAllBlank text.toList = false)
    (hfits : ¬IsTooLarge bytes lineChars text.toList) :
    ∃ mode report, AsksMode configured (askedMode value) mode ∧
      analyze text.toList mode = .ok report ∧
      Response.ofAudit result = ⟨200, some (Audit.toValue ⟨report, nameOf text.toList⟩)⟩ := by
  rcases h.cases_of_text hs hmode with
    ⟨hblank, -⟩ | ⟨-, hsize, -⟩ | ⟨-, -, mode, report, hasks, hreport, rfl⟩
  · exact absurd (hfull.symm.trans hblank) Bool.false_ne_true
  · exact absurd hsize hfits
  · exact ⟨mode, report, hasks, hreport, rfl⟩

theorem isTabled : IsTabled bytes lineChars configured value (.ofAudit result) where
  missing := h.missing_iff
  unknownMode _ hs := h.unknownMode_iff hs
  empty _ hs hmode := h.empty_iff hs hmode
  tooLarge _ hs hmode hfull := h.tooLarge_iff hs hmode hfull
  report _ hs hmode hfull hfits := h.exists_report hs hmode hfull hfits
  notInternal := h.not_internal

end Judged

/--
**The table.** A host with whole limits, a configured mode that is known and the built-in detectors
(`hhost`) answers a JSON body as the table says, given:

* a body of the JSON type (`hjson`) that is not too long (`hlength`);
* its value, or that it is malformed and has none (`hvalue`). Only bodies that are too deep are left
  out by this.
-/
theorem Host.analyze_isTabled {host : Host} {bytes lineChars : Int} {configured : ScanMode}
    (hhost : host.IsPlain bytes lineChars configured) {body : Body} {value : Option Value}
    (hjson : isJsonType body.contentType = true)
    (hlength : Multipart.exceeds host.settings.maxContentLength body.octets.length = false)
    (hvalue : body.json host.settings.maxNesting = .ok value) :
    IsTabled bytes lineChars configured value (host.analyze (some body)) := by
  rw [Host.analyze_eq_of_isJsonType hjson hlength, hvalue]
  exact (hhost.judged_auditJson value).isTabled

theorem Host.isPlain_testing : (Host.ofEnvironment "testing").IsPlain 4096 500 .legacy := by
  refine ⟨rfl, rfl, rfl, ?_⟩
  decide +kernel

/-- A source of one letter. -/
theorem Host.analyze_isTabled_letter :
    IsTabled 4096 500 .legacy (some (.record [("source", .text "a")]))
      ((Host.ofEnvironment "testing").analyze
        (some (jsonBody "\x7b\"source\":\"a\"\x7d".toList))) := by
  have hread : readPoints 980 ("\x7b\"source\":\"a\"\x7d".toList.map Char.toNat) =
      .ok (.record [("source", .text "a")]) := by cbv
  have hvalue : (jsonBody "\x7b\"source\":\"a\"\x7d".toList).json 980 =
      .ok (some (.record [("source", .text "a")])) := by
    rw [json_jsonBody rfl, hread]
  exact Host.analyze_isTabled Host.isPlain_testing (by decide) (by decide) hvalue

theorem not_exceeds_jsonBody {text : List Char} (h : text.length ≤ 16384) :
    Multipart.exceeds (Host.ofEnvironment "testing").settings.maxContentLength
      (jsonBody text).octets.length = false := by
  have hlimit : (Host.ofEnvironment "testing").settings.maxContentLength = some (.int 65536) := rfl
  have hsize : (jsonBody text).octets.length ≤ 4 * text.length := Text.Utf8.length_encode_le text
  rw [hlimit, Multipart.exceeds, Option.any_some, Number.lt_int, decide_eq_false_iff_not]
  omega

/-- An object with a text for its source counts as none if a number in it has too many digits, and a
value that is no object makes the service fail if it is too deep. -/
theorem Host.analyze_unread_bodies :
    let number : List Char := ['\x7b', '"', 'n', '"', ':'] ++
      (List.replicate 4301 '1' ++ ',' :: "\"source\":\"a\"\x7d".toList)
    let lists : List Char := List.replicate 3000 '[' ++ List.replicate 3000 ']'
    (Host.ofEnvironment "testing").analyze (some (jsonBody number)) =
        .error 400 (Failure.message .missingSource) ∧
      ((Host.ofEnvironment "testing").analyze (some (jsonBody lists))).status = 500 := by
  intro number lists
  constructor
  · have hread : readPoints 980 (number.map Char.toNat) = .error .malformed := by
      rw [List.map_append, List.map_append, List.map_replicate]
      exact readPoints_object_replicate_digit (n := 4301) (by decide) _ _
    have hlength : number.length ≤ 16384 := by
      simp only [number, List.length_append, List.length_cons, List.length_replicate]
      decide
    rw [Host.analyze_eq_of_isJsonType (by decide) (not_exceeds_jsonBody hlength),
      json_jsonBody rfl, Host.maxNesting_testing, hread]
    rfl
  · have hread : readPoints 980 (lists.map Char.toNat) = .error (.tooDeep .array) := by
      have hsplit : List.replicate 3000 '[' =
          List.replicate 981 '[' ++ List.replicate 2019 '[' := by
        rw [List.replicate_append_replicate]
      simp only [lists, hsplit, List.append_assoc, List.map_append, List.map_replicate]
      exact readPoints_replicate_bracket 980 _
    have hlength : lists.length ≤ 16384 := by
      simp only [lists, List.length_append, List.length_replicate]
      decide
    rw [Host.analyze_eq_of_isJsonType (by decide) (not_exceeds_jsonBody hlength),
      json_jsonBody rfl, Host.maxNesting_testing, hread]
    rfl

end ContractAudit.Service
