import TestDelegation.Proofs.ClassName
import TestDelegation.Proofs.Json.Lines
import TestDelegation.Proofs.Payload.Acceptance
import TestDelegation.Proofs.Payload.Encoding
import TestDelegation.Proofs.Report.Runs
import TestDelegation.Report.JsonLines

/-!
The report for programs, read back. Main definitions: `EventRecord`, an event whose times are
texts, and `Report.readEvents?`. Main statement: `Report.readEvents?_jsonLinesText`.
-/

namespace TestDelegation

structure ResultRecord where
  startTime : String
  runTime : String
  startedCount : Nat
  runCount : Nat
  failureCount : Nat
  ignoreCount : Nat
  failures : List Failure
  deriving DecidableEq

inductive NoticeRecord where
  | runStarted (description : Description)
  | runFinished (result : ResultRecord)
  | testStarted (description : Description)
  | testFinished (description : Description)
  | testIgnored (description : Description)
  | testFailure (failure : Failure)
  deriving DecidableEq

structure EventRecord where
  timestamp : String
  elapsed : String
  notice : NoticeRecord
  deriving DecidableEq

def RunResult.told (result : RunResult) : ResultRecord where
  startTime := result.startTime.display
  runTime := result.runTime.display
  startedCount := result.startedCount
  runCount := result.runCount
  failureCount := result.failureCount
  ignoreCount := result.ignoreCount
  failures := result.failures

def Notice.told : Notice → NoticeRecord
  | .runStarted description => .runStarted description
  | .runFinished result => .runFinished result.told
  | .testStarted description => .testStarted description
  | .testFinished description => .testFinished description
  | .testIgnored description => .testIgnored description
  | .testFailure failure => .testFailure failure

/-- The event with its times as they are written. -/
def Event.told (event : Event) : EventRecord :=
  ⟨event.timestamp.display, event.elapsed.display, event.notice.told⟩

namespace Json

def member? (key : String) : Json → Option Json
  | .object members => members.lookup key
  | _ => none

def natural? : Json → Option Nat
  | .number (.integer (.ofNat value)) => some value
  | _ => none

def items? : Json → Option (List Json)
  | .array items => some items
  | _ => none

end Json

def Description.read? (value : Json) : Option Description := do
  let shown ← value.member? "display-name" >>= Json.text?
  let described ←
    match value.member? "class-name", value.member? "method" with
    | none, none => some (suite shown)
    | none, some _ => none
    | some name, method => do
      let name ← name.text? >>= fun text => (ClassName.parse text).toOption
      match method with
      | none => some (ofClass name)
      | some method => method.text?.map (ofMethod name)
  if described.displayName = shown then some described else none

def FailureCause.read? (value : Json) : Option FailureCause :=
  (Decoder.cause .value value.depth (Scan.ofJson value)).toOption

def Failure.read? (value : Json) : Option Failure := do
  let description ← value.member? "description" >>= Description.read?
  let cause ← value.member? "cause" >>= FailureCause.read?
  return ⟨description, cause⟩

def ResultRecord.read? (value : Json) : Option ResultRecord := do
  let startTime ← value.member? "start-time" >>= Json.text?
  let runTime ← value.member? "run-time" >>= Json.text?
  let startedCount ← value.member? "started-count" >>= Json.natural?
  let runCount ← value.member? "run-count" >>= Json.natural?
  let failureCount ← value.member? "failure-count" >>= Json.natural?
  let ignoreCount ← value.member? "ignore-count" >>= Json.natural?
  let items ← value.member? "failures" >>= Json.items?
  let failures ← items.mapM Failure.read?
  return { startTime, runTime, startedCount, runCount, failureCount, ignoreCount, failures }

def NoticeRecord.read? (value : Json) : Option NoticeRecord := do
  let description := value.member? "description" >>= Description.read?
  match ← value.member? "event" >>= Json.text? with
  | "run-started" => description.map .runStarted
  | "run-finished" => (value.member? "result" >>= ResultRecord.read?).map .runFinished
  | "test-started" => description.map .testStarted
  | "test-finished" => description.map .testFinished
  | "test-ignored" => description.map .testIgnored
  | "test-failure" => (value.member? "failure" >>= Failure.read?).map .testFailure
  | _ => none

def EventRecord.read? (value : Json) : Option EventRecord := do
  let timestamp ← value.member? "timestamp" >>= Json.text?
  let elapsed ← value.member? "elapsed" >>= Json.text?
  let notice ← NoticeRecord.read? value
  return ⟨timestamp, elapsed, notice⟩

/-- Reads a report of lines that are ended each; nothing may follow the last one. -/
def Report.readEvents? (text : String) : Option (List EventRecord) :=
  let lines := Text.cutLines text
  if lines.getLast? = some "" then
    lines.dropLast.mapM fun line => Json.value? line >>= EventRecord.read?
  else none

theorem Description.read?_encode (description : Description) :
    Description.read? description.encode = some description := by
  cases description with
  | suite title => simp [read?, encode, Json.member?, Json.text?, optionalMember, className?,
      method?, displayName, List.lookup_cons]
  | ofClass name =>
      have parsed : ClassName.parse name.text = .ok name := ClassName.parse_eq_ok_iff.mpr rfl
      simp [read?, encode, Json.member?, Json.text?, optionalMember, className?, method?, parsed,
        displayName, Except.toOption, List.lookup_cons]
  | ofMethod name method =>
      have parsed : ClassName.parse name.text = .ok name := ClassName.parse_eq_ok_iff.mpr rfl
      simp [read?, encode, Json.member?, Json.text?, optionalMember, className?, method?, parsed,
        displayName, Except.toOption, List.lookup_cons]

theorem FailureCause.read?_encode (cause : FailureCause) :
    FailureCause.read? cause.encode = some cause := by
  have yields : Decoder.cause .value cause.encode.depth (Scan.ofJson cause.encode) = .ok cause :=
    Decoder.cause_yields_of_spelled (Nat.le_refl _) cause.spelledBy_encode
  rw [read?, yields]
  rfl

theorem Failure.read?_encode (failure : Failure) :
    Failure.read? failure.encode = some failure := by
  have described := failure.description.read?_encode
  have caused := failure.cause.read?_encode
  simp [read?, encode, Json.member?, List.lookup_cons, described, caused]

theorem ResultRecord.read?_encode (result : RunResult) :
    ResultRecord.read? result.encode = some result.told := by
  have failures : (result.failures.map Failure.encode).mapM Failure.read? =
      some result.failures := by
    have each : result.failures.mapM (Failure.read? ∘ Failure.encode) =
        some (result.failures.map id) :=
      mapM_eq_some_map fun failure _ => failure.read?_encode
    rw [List.mapM_map, each, List.map_id]
  simp [read?, RunResult.encode, Json.member?, List.lookup_cons, Json.text?, Json.natural?,
    Json.integer, Json.items?, failures, RunResult.told]

theorem Event.member?_event (event : Event) :
    event.encode.member? "event" = some (.string event.notice.name) := rfl

theorem Event.member?_content (event : Event) :
    event.encode.member? event.notice.content.1 = some event.notice.content.2 := by
  obtain ⟨timestamp, elapsed, notice⟩ := event
  cases notice with
  | runStarted _ => rfl
  | runFinished _ => rfl
  | testStarted _ => rfl
  | testFinished _ => rfl
  | testIgnored _ => rfl
  | testFailure _ => rfl

theorem NoticeRecord.read?_encode (event : Event) :
    NoticeRecord.read? event.encode = some event.notice.told := by
  have tag := event.member?_event
  have content := event.member?_content
  cases told : event.notice
  all_goals
    simp only [told, Notice.name, Notice.content] at tag content
    simp [read?, tag, content, Json.text?, Notice.told, Description.read?_encode,
      ResultRecord.read?_encode, Failure.read?_encode]

theorem EventRecord.read?_encode (event : Event) :
    EventRecord.read? event.encode = some event.told := by
  have notice := NoticeRecord.read?_encode event
  simp only [read?, notice]
  simp [Event.encode, Json.member?, List.lookup_cons, Json.text?, Event.told]

structure RunResult.CountsFit (result : RunResult) : Prop where
  startedCount : result.startedCount < Json.unsignedLimit
  runCount : result.runCount < Json.unsignedLimit
  failureCount : result.failureCount < Json.unsignedLimit
  ignoreCount : result.ignoreCount < Json.unsignedLimit

def Notice.CountsFit (notice : Notice) : Prop :=
  ∀ result, notice = .runFinished result → result.CountsFit

theorem Json.clean_natural {value : Nat} (fits : value < unsignedLimit) :
    (Json.integer value).Clean :=
  ⟨.integer (by omega) (Int.ofNat_lt.mpr fits), .number _⟩

theorem Description.clean_encode (description : Description) : description.encode.Clean := by
  have shown : NamedMembers Json.Clean ["display-name"]
      [("display-name", .string description.displayName)] :=
    .cons (Json.clean_string _) .nil
  have ofClass := NamedMembers.optional Json.Clean "class-name" description.className?
    fun name _ => Json.clean_string name.text
  have method := NamedMembers.optional Json.Clean "method" description.method?
    fun name _ => Json.clean_string name
  exact Json.clean_object _ (by decide) ((shown.append ofClass).append method)

theorem Failure.clean_encode (failure : Failure) : failure.encode.Clean :=
  Json.clean_object ["description", "cause"] (by decide)
    (.cons failure.description.clean_encode (.cons failure.cause.clean_encode .nil))

theorem RunResult.clean_encode {result : RunResult} (fits : result.CountsFit) :
    result.encode.Clean := by
  refine Json.clean_object ["start-time", "run-time", "started-count", "run-count",
    "failure-count", "ignore-count", "failures"] (by decide) ?_
  exact .cons (Json.clean_string _) <| .cons (Json.clean_string _) <|
    .cons (Json.clean_natural fits.startedCount) <| .cons (Json.clean_natural fits.runCount) <|
    .cons (Json.clean_natural fits.failureCount) <|
    .cons (Json.clean_natural fits.ignoreCount) <|
    .cons (Json.clean_array_map fun failure _ => failure.clean_encode) .nil

theorem Notice.clean_content {notice : Notice} (fits : notice.CountsFit) :
    notice.content.2.Clean := by
  cases notice with
  | runStarted description => exact description.clean_encode
  | runFinished result => exact RunResult.clean_encode (fits result rfl)
  | testStarted description => exact description.clean_encode
  | testFinished description => exact description.clean_encode
  | testIgnored description => exact description.clean_encode
  | testFailure failure => exact failure.clean_encode

theorem Notice.content_key_cases (notice : Notice) : notice.content.1 = "description" ∨
    notice.content.1 = "result" ∨ notice.content.1 = "failure" := by
  cases notice with
  | runFinished _ => exact .inr (.inl rfl)
  | testFailure _ => exact .inr (.inr rfl)
  | _ => exact .inl rfl

theorem Event.clean_encode {event : Event} (fits : event.notice.CountsFit) :
    event.encode.Clean := by
  have apart : ["timestamp", "elapsed", "event", event.notice.content.1].Nodup := by
    rcases event.notice.content_key_cases with key | key | key
    all_goals
      rw [key]
      decide
  refine Json.clean_object _ apart ?_
  exact .cons (Json.clean_string _) <| .cons (Json.clean_string _) <|
    .cons (Json.clean_string _) <| .cons (Notice.clean_content fits) .nil

namespace Report

variable {events : List Event}

/--
A report for programs has one line for each event. Each is one object without repeated keys, which
spells the event, and together they are read back to what the events tell.
-/
theorem readEvents?_jsonLinesText (counted : ∀ event ∈ events, event.notice.CountsFit) :
    Text.cutLines (jsonLinesText events) =
        (events.map fun event => event.encode.render) ++ [""] ∧
      (∀ event ∈ events,
        Json.value? event.encode.render = some event.encode ∧
        (Json.parse event.encode.render = .ok event.encode ↔ event.encode.depth ≤ levelLimit) ∧
        event.encode.DistinctKeys ∧
        event.encode.member? "event" = some (.string event.notice.name) ∧
        event.encode.member? event.notice.content.1 = some event.notice.content.2) ∧
      readEvents? (jsonLinesText events) = some (events.map Event.told) := by
  have written : jsonLinesText events =
      Text.joinEnded (events.map fun event => event.encode.render) := by
    rw [Text.joinEnded, List.map_map]
    rfl
  have cut : Text.cutLines (jsonLinesText events) =
      (events.map fun event => event.encode.render) ++ [""] := by
    rw [written, Text.cutLines_joinEnded_eq_iff]
    exact List.forall_mem_map.mpr fun event _ => event.encode.not_holdsLineFeed_render
  have values : ∀ event ∈ events, Json.value? event.encode.render = some event.encode :=
    fun event listed => Json.value?_render (Event.clean_encode (counted event listed)).exact
  refine ⟨cut, ?_, ?_⟩
  · intro event listed
    refine ⟨values event listed, ?_, (Event.clean_encode (counted event listed)).distinct,
      event.member?_event, event.member?_content⟩
    rw [Json.parse_eq_ok_iff_value?]
    exact and_iff_right (values event listed)
  · rw [readEvents?, cut, List.getLast?_concat, if_pos rfl, List.dropLast_concat, List.mapM_map]
    apply mapM_eq_some_map
    intro event listed
    rw [Function.comp_apply, values event listed, Option.bind_eq_bind, Option.bind_some]
    exact EventRecord.read?_encode event

open RunEvents (eventOf firstClass)

def hardFailure : Failure :=
  ⟨.ofMethod firstClass "a\n\"b\"", ⟨⟨some "p.E", some "\\\n\t\x00", []⟩, [⟨none, some "\n", []⟩]⟩⟩

def hardEvents : List Event :=
  [eventOf (.runStarted (.suite "a\nb")), eventOf (.testFailure hardFailure),
    eventOf (.runFinished { RunResult.new default with
      failureCount := 1
      failures := [hardFailure] })]

theorem readEvents?_hardEvents :
    (∀ event ∈ hardEvents, event.notice.CountsFit) ∧
      (Text.cutLines (jsonLinesText hardEvents)).length = 4 ∧
      readEvents? (jsonLinesText hardEvents) = some (hardEvents.map Event.told) := by
  have counted : ∀ event ∈ hardEvents, event.notice.CountsFit := by
    rintro event listed result finished
    rcases List.mem_cons.mp listed with rfl | later
    · cases finished
    rcases List.mem_pair.mp later with rfl | rfl
    · cases finished
    · obtain rfl := Notice.runFinished.inj finished
      constructor <;> decide
  obtain ⟨cut, _, read⟩ := readEvents?_jsonLinesText counted
  refine ⟨counted, ?_, read⟩
  rw [cut]
  rfl

end Report

end TestDelegation
