import OviproApi.Ecma.JsonRoundTrip
import OviproApi.Middleware
import OviproApi.OpenApi

/-! The errors that the factory functions make, and what a client reads of them
against the schema that the API publishes for its error responses. -/

namespace Ovipro.ErrorHandling
open Ecma Json Sample Middleware OpenApi

namespace ErrorDescriptionFormatters

def valueRequired (parameterName : String) : String :=
  s!"Mandatory request parameter {parameterName} is missing"

def missingOtherDescription (entityName : String) : String :=
  s!"Mandatory field {entityName} other description is missing"

def mandatoryFieldMissing (fieldName : String) : String :=
  s!"Mandatory field {fieldName} is missing"

def invalidRealtyType (fieldName : String) (realtyTypes : List String) : String :=
  let realtyTypes := ",".intercalate realtyTypes
  s!"Wrong realty type, {fieldName} should be one of : {realtyTypes}"

def wrongUpperCaseCodeStringFormat (fieldName : String) : String :=
  s!"Wrong {fieldName} format, it should only contain uppercase letters and underscores;"

end ErrorDescriptionFormatters

def createMissingOtherTypeDescription (target : String) : ErrorWrapper :=
  .new .valueRequired (ErrorDescriptionFormatters.missingOtherDescription target)
    (some "typeOtherDescription") none

def createUpperCaseCodeStringFormatError (target : String) : ErrorWrapper :=
  .new .badRequestParameters (ErrorDescriptionFormatters.wrongUpperCaseCodeStringFormat target)
    (some target) none

def createMandatoryFieldError (fieldName : String) : ErrorWrapper :=
  .new .valueRequired (ErrorDescriptionFormatters.mandatoryFieldMissing fieldName)
    (some fieldName) none

def getMissingRequiredFieldError (target : String) : ErrorWrapper :=
  .new .valueRequired (ErrorDescriptionFormatters.valueRequired target) (some target) none

def getWrongRealtyTypeError (fieldName : String) (realtyTypes : List String) : ErrorWrapper :=
  .new .badRequestBody (ErrorDescriptionFormatters.invalidRealtyType fieldName realtyTypes)
    none none

/-- A call of one of the factory functions. -/
inductive FactoryCall
  | missingOtherTypeDescription (target : String)
  | upperCaseCodeStringFormatError (target : String)
  | mandatoryFieldError (fieldName : String)
  | missingRequiredFieldError (target : String)
  | wrongRealtyTypeError (fieldName : String) (realtyTypes : List String)
  deriving DecidableEq, Repr

namespace FactoryCall

def errorWrapper : FactoryCall → ErrorWrapper
  | missingOtherTypeDescription target => createMissingOtherTypeDescription target
  | upperCaseCodeStringFormatError target => createUpperCaseCodeStringFormatError target
  | mandatoryFieldError fieldName => createMandatoryFieldError fieldName
  | missingRequiredFieldError target => getMissingRequiredFieldError target
  | wrongRealtyTypeError fieldName realtyTypes => getWrongRealtyTypeError fieldName realtyTypes

/-- The calls that name what the error is about. -/
def Targeted : FactoryCall → Prop
  | missingOtherTypeDescription _ => True
  | upperCaseCodeStringFormatError target => target ≠ ""
  | mandatoryFieldError fieldName => fieldName ≠ ""
  | missingRequiredFieldError target => target ≠ ""
  | wrongRealtyTypeError _ _ => False

theorem isSome_target_iff (call : FactoryCall) :
    call.errorWrapper.target.isSome ↔ call.Targeted := by
  have hfilter : ∀ target : String, ((some target).filter (· != "")).isSome ↔ target ≠ "" := by
    intro target
    by_cases h : target = ""
    · simp [h]
    · simp [Option.filter, h]
  cases call with
  | missingOtherTypeDescription target =>
    exact iff_of_true ((hfilter "typeOtherDescription").mpr (by decide)) trivial
  | upperCaseCodeStringFormatError target => exact hfilter target
  | mandatoryFieldError fieldName => exact hfilter fieldName
  | missingRequiredFieldError target => exact hfilter target
  | wrongRealtyTypeError fieldName realtyTypes => exact iff_of_false nofun id

end FactoryCall

/-! The schemas of the API document. -/

def errorSchema : Schema :=
  .object ["target", "errorCode", "message"]
    [("target", .string), ("errorCode", .string), ("message", .string)]

def errorResponseSchema : Schema :=
  .object ["errorCode", "message"]
    [("errorCode", .string), ("message", .string), ("description", .string),
      ("errors", .array errorSchema)]

/-- An item that carries the fields of an error. -/
def ItemOf (error : ErrorWrapper) (item : Value) : Prop :=
  ∃ members, item = .obj members ∧
    members.lookup "errorCode" = some (.str error.errorCode.value) ∧
    members.lookup "message" = some (.str error.message) ∧
    members.lookup "target" = error.target.map .str

/-- What is documented of the response to a `HandlerError` with these arguments. -/
structure Documented (message : String) (errorCode : EnumErrorCode) (description : Option String)
    (errors : List ErrorWrapper) (statusCode : Option Nat) (body : List (String × Value)) :
    Prop where
  statusCode_eq : ∀ key, (key, errorCode) ∈ EnumErrorCode.entries →
    statusCode = EnumErrorCodeNumber.lookup key
  accepted : errorResponseSchema.Accepts (.obj body)
  errorCode_eq : body.lookup "errorCode" = some (.str errorCode.value)
  message_eq : body.lookup "message" = some (.str message)
  description_absent : body.lookup "description" = none ↔ description.getD "" = ""
  description_eq : ∀ v, body.lookup "description" = some v → description.map .str = some v
  errors_absent : body.lookup "errors" = none ↔ errors = []
  errors_eq : ∀ v, body.lookup "errors" = some v →
    ∃ items, v = .arr items ∧ errors.Forall₂ ItemOf items

/-- The error handler extends a response by what is documented of the error. -/
def Reports (event : APIGatewayEvent) (response : APIGatewayProxyResult) (message : String)
    (errorCode : EnumErrorCode) (description : Option String)
    (calls : Option (List FactoryCall)) : Prop :=
  let errors := calls.map (·.map FactoryCall.errorWrapper)
  let error := HandlerError.new (some message) (some errorCode) description errors
  ∃ written text body,
    (errorHandler.onError ⟨event, some response, some (.handlerError error)⟩).1.response =
      some written ∧ written.body = .str text ∧ Json.parse text = .ok (.obj body) ∧
      Documented message errorCode description (errors.getD []) written.statusCode body

theorem number_declared {key : String} {errorCode : EnumErrorCode}
    (h : (key, errorCode) ∈ EnumErrorCode.entries) :
    EnumErrorCodeNumber.lookup key = some errorCode.number := by
  have hall : ∀ entry ∈ EnumErrorCode.entries,
      EnumErrorCodeNumber.lookup entry.1 = some entry.2.number := by decide
  exact hall (key, errorCode) h

/-! The body of the response, before it is written and as it is read. -/

def wrapperMembers (error : ErrorWrapper) : List (String × Value) :=
  [("errorCode", .str error.errorCode.value), ("message", .str error.message),
    ("target", textOrUndefined error.target), ("name", textOrUndefined error.name)]

def bodyMembers (error : HandlerError) : List (String × Value) :=
  [("errorCode", .str error.errorCode.value), ("message", .str error.message),
    ("description", textOrUndefined (error.description.filter (· != ""))),
    ("errors", error.errors.elim .undefined fun errors => .arr (errors.map wrapperValue))]

theorem errorBody_eq (error : HandlerError) :
    errorBody error = jsonText (.obj (bodyMembers error)) := rfl

theorem wellFormed_textOrUndefined (text : Option String) : WellFormed (textOrUndefined text) := by
  cases text with
  | none => trivial
  | some text => trivial

theorem wellFormed_wrapperValue (error : ErrorWrapper) : WellFormed (wrapperValue error) := by
  have hordered : Ordered (wrapperMembers error) := by
    apply ordered_of_names
    · simp only [wrapperMembers, List.forall_mem_cons]
      decide
    · simp [wrapperMembers]
  have htarget := wellFormed_textOrUndefined error.target
  have hname := wellFormed_textOrUndefined error.name
  exact ⟨hordered, trivial, trivial, htarget, hname, trivial⟩

theorem wellFormed_bodyMembers (error : HandlerError) :
    WellFormed (.obj (bodyMembers error)) := by
  have hordered : Ordered (bodyMembers error) := by
    apply ordered_of_names
    · simp only [bodyMembers, List.forall_mem_cons]
      decide
    · simp [bodyMembers]
  have hdescription := wellFormed_textOrUndefined (error.description.filter (· != ""))
  have herrors : WellFormed
      (error.errors.elim .undefined fun errors => .arr (errors.map wrapperValue)) := by
    cases error.errors with
    | none => trivial
    | some errors =>
      apply wellFormedElements_of_forall
      intro v hv
      obtain ⟨wrapper, -, rfl⟩ := List.mem_map.mp hv
      exact wellFormed_wrapperValue wrapper
  exact ⟨hordered, trivial, trivial, hdescription, herrors, trivial⟩

/-- The body reads as its members that are not `undefined`. -/
theorem parse_errorBody (error : HandlerError) :
    ∃ text, errorBody error = .str text ∧
      Json.parse text = .ok (.obj (keptMembers (bodyMembers error))) := by
  obtain ⟨text, htext, hparse⟩ := parse_stringify (wellFormed_bodyMembers error) nofun
  refine ⟨text, ?_, hparse⟩
  rw [errorBody_eq, jsonText, htext]
  rfl

theorem lookup_wrapperMembers (error : ErrorWrapper) (key : String) :
    (keptMembers (wrapperMembers error)).lookup key =
      (((wrapperMembers error).lookup key).filter (· ≠ .undefined)).map kept :=
  lookup_keptMembers (by simp [wrapperMembers]) key

theorem lookup_bodyMembers (error : HandlerError) (key : String) :
    (keptMembers (bodyMembers error)).lookup key =
      (((bodyMembers error).lookup key).filter (· ≠ .undefined)).map kept :=
  lookup_keptMembers (by simp [bodyMembers]) key

theorem kept_textOrUndefined (text : Option String) :
    ((some (textOrUndefined text)).filter (· ≠ .undefined)).map kept = text.map .str := by
  cases text with
  | none => rfl
  | some text => rfl

theorem lookup_target (error : ErrorWrapper) :
    (keptMembers (wrapperMembers error)).lookup "target" = error.target.map .str := by
  rw [lookup_wrapperMembers]
  exact kept_textOrUndefined error.target

theorem lookup_description (error : HandlerError) :
    (keptMembers (bodyMembers error)).lookup "description" =
      (error.description.filter (· != "")).map .str := by
  rw [lookup_bodyMembers]
  exact kept_textOrUndefined (error.description.filter (· != ""))

theorem kept_wrapperValue (error : ErrorWrapper) :
    kept (wrapperValue error) = .obj (keptMembers (wrapperMembers error)) := rfl

theorem lookup_errors (error : HandlerError) :
    (keptMembers (bodyMembers error)).lookup "errors" =
      error.errors.map fun errors => .arr (errors.map fun e => kept (wrapperValue e)) := by
  rw [lookup_bodyMembers]
  show ((some (error.errors.elim Value.undefined _)).filter _).map kept = _
  cases error.errors with
  | none => rfl
  | some errors =>
    have hdefined : ∀ v ∈ errors.map wrapperValue, v ≠ .undefined := by
      intro v hv
      obtain ⟨wrapper, -, rfl⟩ := List.mem_map.mp hv
      exact nofun
    have helements := keptElements_eq_map hdefined
    rw [List.map_map] at helements
    exact congrArg (some ∘ Value.arr) helements

theorem itemOf_wrapperValue (error : ErrorWrapper) : ItemOf error (kept (wrapperValue error)) := by
  have hcode := lookup_wrapperMembers error "errorCode"
  have hmessage := lookup_wrapperMembers error "message"
  exact ⟨_, kept_wrapperValue error, hcode, hmessage, lookup_target error⟩

/-- What is read in the body of an error: its description and its errors where it has
any, and nothing else. -/
structure ErrorObject (errorCode message : String) (description : Option String)
    (errors : Option (List ErrorWrapper)) (body : List (String × Value)) : Prop where
  errorCode : body.lookup "errorCode" = some (.str errorCode)
  message : body.lookup "message" = some (.str message)
  description : body.lookup "description" = (description.filter (· != "")).map .str
  errors_absent : errors = none → body.lookup "errors" = none
  errors_eq : ∀ es, errors = some es →
    ∃ items, body.lookup "errors" = some (.arr items) ∧ es.Forall₂ ItemOf items
  names : ∀ key v, body.lookup key = some v →
    key ∈ ["errorCode", "message", "description", "errors"]

theorem errorObject_errorBody (error : HandlerError) :
    ∃ text body, errorBody error = .str text ∧ Json.parse text = .ok (.obj body) ∧
      ErrorObject error.errorCode.value error.message error.description error.errors body := by
  obtain ⟨text, htext, hparse⟩ := parse_errorBody error
  have herrors := lookup_errors error
  refine ⟨text, _, htext, hparse, ?_⟩
  constructor
  case errorCode => exact lookup_bodyMembers error "errorCode"
  case message => exact lookup_bodyMembers error "message"
  case description => exact lookup_description error
  case errors_absent =>
    intro hnone
    rw [herrors, hnone]
    rfl
  case errors_eq =>
    intro es hes
    rw [herrors, hes]
    refine ⟨_, rfl, ?_⟩
    apply List.forall₂_map_right_iff.mpr
    apply List.forall₂_same.mpr
    exact fun e _ => itemOf_wrapperValue e
  case names =>
    intro key v hv
    rw [lookup_bodyMembers] at hv
    obtain ⟨w, hw, -⟩ := Option.map_eq_some_iff.mp hv
    have hlookup := (Option.filter_eq_some_iff.mp hw).1
    obtain ⟨m, hm, hkey⟩ := List.lookup_isSome_iff.mp (Option.isSome_of_eq_some hlookup)
    rw [beq_iff_eq.mp hkey]
    exact List.mem_map_of_mem (f := Prod.fst) hm

/-- An item is what the schema asks for exactly when its error has a target. -/
theorem errorSchema_accepts_iff (error : ErrorWrapper) :
    errorSchema.Accepts (kept (wrapperValue error)) ↔ error.target.isSome := by
  obtain ⟨members, heq, hcode, hmessage, htarget⟩ := itemOf_wrapperValue error
  rw [heq, errorSchema, Schema.accepts_object]
  constructor
  · intro h
    have hsome := h.1 "target" (by decide)
    rw [htarget, Option.isSome_map] at hsome
    exact hsome
  · intro h
    refine ⟨?_, Schema.accepts_text htarget, ?_, ?_, trivial⟩
    · simp only [List.forall_mem_cons, htarget, hcode, hmessage, Option.isSome_map, h]
      simp
    · have hcode' : members.lookup "errorCode" = (some _).map .str := hcode
      exact Schema.accepts_text hcode'
    · have hmessage' : members.lookup "message" = (some _).map .str := hmessage
      exact Schema.accepts_text hmessage'

theorem errorResponseSchema_accepts_iff (error : HandlerError) :
    errorResponseSchema.Accepts (.obj (keptMembers (bodyMembers error))) ↔
      ∀ e ∈ error.errors.getD [], e.target.isSome := by
  have hcode : (keptMembers (bodyMembers error)).lookup "errorCode" = (some _).map .str :=
    lookup_bodyMembers error "errorCode"
  have hmessage : (keptMembers (bodyMembers error)).lookup "message" = (some _).map .str :=
    lookup_bodyMembers error "message"
  have herrors := lookup_errors error
  rw [errorResponseSchema, Schema.accepts_object]
  constructor
  · intro h e he
    rcases h with ⟨-, -, -, -, hitems, -⟩
    cases hlist : error.errors with
    | none =>
      rw [hlist] at he
      cases he
    | some errors =>
      rw [hlist] at he herrors
      have hall := Schema.accepts_array.mp (hitems _ herrors)
      exact (errorSchema_accepts_iff e).mp (hall _ (List.mem_map_of_mem he))
  · intro h
    refine ⟨?_, Schema.accepts_text hcode, Schema.accepts_text hmessage,
      Schema.accepts_text (lookup_description error), ?_, trivial⟩
    · simp only [List.forall_mem_cons, hcode, hmessage]
      simp
    · intro v hv
      rw [herrors] at hv
      obtain ⟨errors, hlist, rfl⟩ := Option.map_eq_some_iff.mp hv
      rw [hlist] at h
      apply Schema.accepts_array.mpr
      intro item hitem
      obtain ⟨e, he, rfl⟩ := List.mem_map.mp hitem
      exact (errorSchema_accepts_iff e).mpr (h e he)

variable {event : APIGatewayEvent} {response : APIGatewayProxyResult} {message : String}
  {errorCode : EnumErrorCode} {description : Option String} {calls : Option (List FactoryCall)}

theorem errors_new (message : String) (errorCode : EnumErrorCode) (description : Option String)
    (errors : Option (List ErrorWrapper)) :
    ((HandlerError.new (some message) (some errorCode) description errors).errors = none ↔
      errors.getD [] = []) ∧
    (HandlerError.new (some message) (some errorCode) description errors).errors.getD [] =
      errors.getD [] := by
  cases errors with
  | none => exact ⟨iff_of_true rfl rfl, rfl⟩
  | some errors =>
    cases errors with
    | nil => exact ⟨iff_of_true rfl rfl, rfl⟩
    | cons e es => exact ⟨iff_of_false nofun nofun, rfl⟩

/-- Everything that is documented holds, up to the targets of the items. -/
theorem documented_of_accepted {errors : Option (List ErrorWrapper)}
    (h : ∀ e ∈ errors.getD [], e.target.isSome) :
    Documented message errorCode description (errors.getD []) (some errorCode.number)
      (keptMembers (bodyMembers
        (HandlerError.new (some message) (some errorCode) description errors))) := by
  obtain ⟨hnone, hgetD⟩ := errors_new message errorCode description errors
  have hdescription := lookup_description
    (HandlerError.new (some message) (some errorCode) description errors)
  have herrors := lookup_errors
    (HandlerError.new (some message) (some errorCode) description errors)
  constructor
  case statusCode_eq =>
    intro key hkey
    exact (number_declared hkey).symm
  case accepted =>
    apply (errorResponseSchema_accepts_iff _).mpr
    rw [hgetD]
    exact h
  case errorCode_eq => exact lookup_bodyMembers _ "errorCode"
  case message_eq => exact lookup_bodyMembers _ "message"
  case description_absent =>
    rw [hdescription, Option.map_eq_none_iff]
    show description.filter (· != "") = none ↔ _
    cases description with
    | none => exact iff_of_true rfl rfl
    | some text => simp [Option.filter]
  case description_eq =>
    intro v hv
    rw [hdescription] at hv
    obtain ⟨text, htext, rfl⟩ := Option.map_eq_some_iff.mp hv
    exact congrArg (Option.map Value.str) (Option.filter_eq_some_iff.mp htext).1
  case errors_absent =>
    rw [herrors, Option.map_eq_none_iff]
    exact hnone
  case errors_eq =>
    intro v hv
    rw [herrors] at hv
    obtain ⟨items, hitems, rfl⟩ := Option.map_eq_some_iff.mp hv
    rw [hitems] at hgetD
    refine ⟨_, rfl, ?_⟩
    rw [← hgetD]
    apply List.forall₂_map_right_iff.mpr
    apply List.forall₂_same.mpr
    exact fun e _ => itemOf_wrapperValue e

theorem targets_iff (calls : Option (List FactoryCall)) :
    (∀ e ∈ (calls.map (·.map FactoryCall.errorWrapper)).getD [], e.target.isSome) ↔
      ∀ call ∈ calls.getD [], call.Targeted := by
  cases calls with
  | none => exact iff_of_true nofun nofun
  | some calls =>
    show (∀ e ∈ calls.map FactoryCall.errorWrapper, _) ↔ ∀ call ∈ calls, _
    rw [List.forall_mem_map]
    exact forall₂_congr fun call _ => call.isSome_target_iff

theorem reports_of_targeted (h : ∀ call ∈ calls.getD [], call.Targeted) :
    Reports event response message errorCode description calls := by
  have htargets := (targets_iff calls).mpr h
  obtain ⟨text, htext, hparse⟩ := parse_errorBody (HandlerError.new (some message)
    (some errorCode) description (calls.map (·.map FactoryCall.errorWrapper)))
  have hdocumented := @documented_of_accepted message errorCode description _ htargets
  have hstatus := HandlerError.new_statusCode (some message) errorCode description
    (calls.map (·.map FactoryCall.errorWrapper))
  refine ⟨_, text, _, rfl, htext, hparse, ?_⟩
  rw [← hstatus] at hdocumented
  exact hdocumented

theorem targeted_of_reports (h : Reports event response message errorCode description calls) :
    ∀ call ∈ calls.getD [], call.Targeted := by
  rcases h with ⟨written, text, body, hwritten, hbody, hparse, hdocumented⟩
  obtain ⟨text', htext, hparse'⟩ := parse_errorBody (HandlerError.new (some message)
    (some errorCode) description (calls.map (·.map FactoryCall.errorWrapper)))
  cases hwritten
  have hsame : text' = text := Value.str.inj (htext.symm.trans hbody)
  rw [hsame, hparse] at hparse'
  have hkept := Value.obj.inj (Except.ok.inj hparse')
  have haccepted := hdocumented.accepted
  -- of all that is documented only the schema asks for the targets
  rw [hkept, errorResponseSchema_accepts_iff, (errors_new _ _ _ _).2] at haccepted
  exact (targets_iff calls).mp haccepted

/-- Errors are reported as documented exactly when every item names its target. -/
theorem reports_iff_targeted (event : APIGatewayEvent) (response : APIGatewayProxyResult)
    (message : String) (errorCode : EnumErrorCode) (description : Option String)
    (calls : Option (List FactoryCall)) :
    Reports event response message errorCode description calls ↔
      ∀ call ∈ calls.getD [], call.Targeted :=
  ⟨targeted_of_reports, reports_of_targeted⟩

def plainEvent : APIGatewayEvent where
  headers := some []
  queryStringParameters := none
  requestContext := ⟨none⟩
  body := .undefined

theorem wrongRealtyType_not_reported :
    ¬ ∀ (event : APIGatewayEvent) (response : APIGatewayProxyResult) (message : String)
      (errorCode : EnumErrorCode) (description : Option String)
      (calls : Option (List FactoryCall)),
      Reports event response message errorCode description calls := by
  intro h
  have hreports := h plainEvent ⟨none, some [], .undefined⟩ "Bad request" .badRequestBody none
    (some [.wrongRealtyTypeError "realtyTypeCode" ["APARTMENT", "HOUSE"]])
  exact targeted_of_reports hreports _ (List.mem_singleton_self _)

end Ovipro.ErrorHandling
