import TestDelegation.Delegation

/-!
How an error and the errors below it become a cause. Main statement: `cause_reports_trail`. The
texts below an error are collected from the top by walking from source to source, and the causes
are put together from the bottom; the order and the number of them survive both.
-/

namespace TestDelegation

namespace ErrorTrail

def ofTexts (text : String) : List String → ErrorTrail
  | [] => .last text
  | first :: later => .caused text (ofTexts first later)

def collect (met : List String) : ErrorTrail → List String
  | .last _ => met
  | .caused _ source => source.collect (met ++ [source.text])

end ErrorTrail

namespace FailureCause

def onto (outer : FailureCause) : Option FailureCause → FailureCause
  | none => outer
  | some inner => outer.withCause inner

def nest (inner : Option FailureCause) (text : String) : Option FailureCause :=
  some ((ofMessage text).onto inner)

def ofTrail (category : String) (trail : ErrorTrail) : FailureCause :=
  (new category trail.text).onto ((trail.collect []).reverse.foldl nest none)

end FailureCause

def ConfigurationError.trail (error : ConfigurationError) : ErrorTrail := .last error.message

def TransportError.trail : TransportError → ErrorTrail
  | .status url code detail => .last (TransportError.status url code detail).message
  | .request url texts => .ofTexts (TransportError.request url texts).message texts
  | .body url texts => .ofTexts (TransportError.body url texts).message texts

def DecodeError.trail : DecodeError → ErrorTrail
  | .notJson error => .caused (DecodeError.notJson error).message error
  | .noAdapter field kind => .last (DecodeError.noAdapter field kind).message
  | .wrongShape error => .caused (DecodeError.wrongShape error).message error
  | .conflict found => .caused (DecodeError.conflict found).message (.last found.message)

/-- A wrapper has the text and the source of what it wraps, and no level of its own. -/
def DelegationError.trail : DelegationError → ErrorTrail
  | .configuration error => error.trail
  | .transport error => error.trail
  | .decode error => error.trail
  | .assumption violation => .last (DelegationError.assumption violation).message
  | .stopped stop => .last stop.message

namespace ErrorTrail

variable {trail : ErrorTrail}

theorem texts_ofTexts (text : String) (later : List String) :
    (ofTexts text later).texts = text :: later := by
  induction later generalizing text with
  | nil => rfl
  | cons first later ih => exact congrArg _ (ih first)

theorem ofTexts_texts (text : String) : ofTexts text trail.texts = .caused text trail := by
  induction trail generalizing text with
  | last last => rfl
  | caused middle source ih => exact congrArg _ (ih middle)

theorem collect_eq (met : List String) : trail.collect met = met ++ trail.sources := by
  induction trail generalizing met with
  | last text => exact (List.append_nil met).symm
  | caused text source ih => rw [collect, ih, sources, List.append_assoc, List.singleton_append]

end ErrorTrail

namespace TransportError

variable (url : String) (library : ErrorTrail)

theorem trail_request :
    (request url library.texts).trail = .caused (request url library.texts).message library :=
  ErrorTrail.ofTexts_texts _

theorem trail_body :
    (body url library.texts).trail = .caused (body url library.texts).message library :=
  ErrorTrail.ofTexts_texts _

theorem texts_trail (error : TransportError) :
    error.trail.texts = error.message :: error.sources := by
  cases error with
  | status url code detail => rfl
  | request url texts => exact ErrorTrail.texts_ofTexts _ texts
  | body url texts => exact ErrorTrail.texts_ofTexts _ texts

end TransportError

theorem DecodeError.texts_trail (error : DecodeError) :
    error.trail.texts = error.message :: error.sources := by
  cases error <;> rfl

theorem DelegationError.texts_trail (error : DelegationError) :
    error.trail.texts = error.message :: error.sources := by
  cases error with
  | transport error => exact error.texts_trail
  | decode error => exact error.texts_trail
  | configuration error => rfl
  | assumption violation => rfl
  | stopped stop => rfl

namespace FailureCause

theorem eq_of_chain {first second : FailureCause} (same : first.chain = second.chain) :
    first = second := by
  obtain ⟨outer, nested⟩ := first
  obtain ⟨rfl, rfl⟩ := List.cons.inj same
  rfl

theorem chain_onto {outer : FailureCause} (bare : outer.nested = [])
    (inner : Option FailureCause) :
    (outer.onto inner).chain = outer.outer :: inner.elim [] chain := by
  cases inner with
  | none => exact congrArg _ bare
  | some inner => rfl

theorem chain_foldl_nest (texts : List String) :
    (texts.reverse.foldl nest none).elim [] chain =
      texts.map fun text => ⟨none, some text, []⟩ := by
  -- the nearest source is met last, so from the right it is the outermost
  rw [List.foldl_reverse]
  induction texts with
  | nil => rfl
  | cons text later ih =>
      rw [List.foldr_cons, nest, Option.elim_some, chain_onto rfl, ih]
      rfl

theorem chain_ofTrail (category : String) (trail : ErrorTrail) :
    (ofTrail category trail).chain =
      ⟨some category, some trail.text, []⟩ ::
        trail.sources.map fun text => ⟨none, some text, []⟩ := by
  rw [ofTrail, chain_onto rfl, trail.collect_eq, List.nil_append, chain_foldl_nest]
  rfl

/-- The cause has one level for the error and one for each error below it, in their order. -/
structure ReportsTrail (cause : FailureCause) (category : String) (trail : ErrorTrail) : Prop where
  rebuilt : cause = ofTrail category trail
  count : cause.chain.length = 1 + trail.sources.length
  outermost : cause.chain.head? = some ⟨some category, some trail.text, []⟩
  nested : ∀ index, cause.chain[index + 1]? =
    trail.sources[index]?.map fun text => ⟨none, some text, []⟩
  frameless : ∀ thrown ∈ cause.chain, thrown.stackTrace = []

theorem ofTrail_reportsTrail (category : String) (trail : ErrorTrail) :
    (ofTrail category trail).ReportsTrail category trail where
  rebuilt := rfl
  count := by rw [chain_ofTrail, List.length_cons, List.length_map, Nat.add_comm]
  outermost := by rw [chain_ofTrail, List.head?_cons]
  nested index := by rw [chain_ofTrail, List.getElem?_cons_succ, List.getElem?_map]
  frameless := by
    intro thrown listed
    rw [chain_ofTrail, List.mem_cons, List.mem_map] at listed
    obtain rfl | ⟨text, _, rfl⟩ := listed <;> rfl

end FailureCause

namespace DelegationError

theorem chain_cause (error : DelegationError) :
    error.cause.chain = ⟨some error.category, some error.message, []⟩ ::
      error.sources.map fun text => ⟨none, some text, []⟩ := rfl

theorem cause_eq_ofTrail (error : DelegationError) :
    error.cause = .ofTrail error.category error.trail := by
  apply FailureCause.eq_of_chain
  obtain ⟨message, sources⟩ := List.cons.inj error.texts_trail
  rw [FailureCause.chain_ofTrail, message, sources, chain_cause]

theorem cause_reportsTrail (error : DelegationError) :
    error.cause.ReportsTrail error.category error.trail := by
  rw [cause_eq_ofTrail]
  exact FailureCause.ofTrail_reportsTrail error.category error.trail

theorem messages_cause (error : DelegationError) :
    error.cause.chain.map Thrown.message = (error.message :: error.sources).map some := by
  simp [chain_cause, Function.comp_def]

theorem cause_of_not_json {codec : Codec} {payload : String} {fault : Fault}
    (broken : Json.parse payload = .error fault) :
    ∃ error, codec.decode payload = .error error ∧ (decode error).cause.ReportsTrail "decode error"
      (.caused "remote test result is not valid JSON" (codec.wording payload (.text fault))) := by
  refine ⟨.notJson (codec.wording payload (.text fault)), ?_, cause_reportsTrail _⟩
  rw [Codec.decode, Codec.decodeDetail, broken]
  rfl

/--
Every error is reported with all the errors below it, a library's error with its own; what a wrapper
wraps is the outermost level and stands nowhere else.
-/
theorem cause_reports_trail :
    (∀ error : DelegationError, error.cause.ReportsTrail error.category error.trail ∧
      error.trail.text = error.message) ∧
    (∀ url library, (transport (.request url (ErrorTrail.texts library))).cause.ReportsTrail
      "transport error" (.caused ("request to [" ++ url ++ "] failed") library)) ∧
    (∀ url library, (transport (.body url (ErrorTrail.texts library))).cause.ReportsTrail
      "transport error" (.caused ("failed to read response body from [" ++ url ++ "]") library)) ∧
    (∀ library, (decode (.notJson library)).cause.ReportsTrail
      "decode error" (.caused "remote test result is not valid JSON" library)) ∧
    (∀ library, (decode (.wrongShape library)).cause.ReportsTrail
      "decode error" (.caused "remote test result has an unexpected shape" library)) ∧
    (∀ error, (configuration error).cause.chain.map Thrown.message = [some error.message]) ∧
    (∀ error, (transport error).cause.chain.map Thrown.message =
      (error.message :: error.sources).map some) ∧
    (∀ error, (decode error).cause.chain.map Thrown.message =
      (error.message :: error.sources).map some) := by
  refine ⟨fun error => ⟨error.cause_reportsTrail, (List.cons.inj error.texts_trail).1⟩,
    fun url library => ?_, fun url library => ?_,
    fun library => (decode (.notJson library)).cause_reportsTrail,
    fun library => (decode (.wrongShape library)).cause_reportsTrail,
    fun error => messages_cause (configuration error),
    fun error => messages_cause (transport error), fun error => messages_cause (decode error)⟩
  · have reports := (transport (.request url library.texts)).cause_reportsTrail
    rwa [trail, TransportError.trail_request] at reports
  · have reports := (transport (.body url library.texts)).cause_reportsTrail
    rwa [trail, TransportError.trail_body] at reports

end DelegationError

end TestDelegation
