import Mathlib.Data.List.TakeWhile
import OviproApi.ErrorResponses

/-! The responses of the API gateway to requests that do not come through to a
function, and what a client reads in them. -/

namespace Ovipro.VersionedOpenApi
open Ecma Json OpenApi

inductive ResponseType
  | badRequestBody
  | badRequestParameters
  | invalidApiKey
  | invalidSignature
  | expiredToken
  | missingAuthenticationToken
  | resourceNotFound
  | accessDenied
  | throttled
  | unauthorized
  | default4xx
  | default5xx
  deriving DecidableEq, Repr

/-- The template of the content type `application/json`, which is written as JSON. -/
structure GatewayResponse where
  id : String
  type : ResponseType
  statusCode : Option String
  template : Value

def errorTemplate : Value :=
  .obj [("errorCode", .str "$context.error.responseType"),
    ("message", .str "$context.error.message")]

def badRequestBodyTemplate : Value :=
  .obj [("errorCode", .str "$context.error.responseType"),
    ("message", .str "$context.error.message"),
    ("description", .str "$context.error.validationErrorString")]

def badRequestParametersTemplate : Value :=
  .obj [("errorCode", .str "$context.error.responseType"),
    ("message", .str "$context.error.message"),
    ("details", .arr [.obj [("target", .str "$context.error.validationErrorString"),
      ("errorCode", .str "$context.error.responseType"),
      ("message", .str "$context.error.message")]])]

def gatewayResponses : List GatewayResponse :=
  [⟨"BadRequestBody", .badRequestBody, none, badRequestBodyTemplate⟩,
    ⟨"BadRequestParameters", .badRequestParameters, none, badRequestParametersTemplate⟩,
    ⟨"InvalidApiKey", .invalidApiKey, some "403", errorTemplate⟩,
    ⟨"InvalidSignature", .invalidSignature, some "403", errorTemplate⟩,
    ⟨"ExpiredToken", .expiredToken, none, errorTemplate⟩,
    ⟨"MissingAuthenticationToken", .missingAuthenticationToken, some "403", errorTemplate⟩,
    ⟨"ResourceNotFound", .resourceNotFound, none, errorTemplate⟩,
    ⟨"AccessDenied", .accessDenied, some "403", errorTemplate⟩,
    ⟨"Throttled", .throttled, none, errorTemplate⟩,
    ⟨"Unauthorized", .unauthorized, none, errorTemplate⟩,
    ⟨"Default4XX", .default4xx, none, errorTemplate⟩,
    ⟨"Default5XX", .default5xx, none, errorTemplate⟩]

def GatewayResponse.templateText (response : GatewayResponse) : String :=
  (stringify response.template).getD ""

/-! What the gateway makes of a template. -/

/-- The variables of an error. -/
inductive Variable
  | responseType
  | message
  | validationErrorString
  deriving DecidableEq, Repr

def Variable.name : Variable → String
  | responseType => "$context.error.responseType"
  | message => "$context.error.message"
  | validationErrorString => "$context.error.validationErrorString"

/-- A template consists of texts that are kept and of variables. -/
inductive Piece
  | kept (text : List Char)
  | replaced (v : Variable)

/-- The pieces with texts for the variables. -/
def assemble (value : Variable → String) (pieces : List Piece) : List Char :=
  pieces.flatMap fun piece =>
    match piece with
    | .kept text => text
    | .replaced v => (value v).toList

/-- The variables end with a quote, and there are no others. -/
def Separated : List Piece → Prop
  | [] => True
  | .kept text :: pieces => '$' ∉ text ∧ Separated pieces
  | .replaced _ :: pieces =>
    (assemble Variable.name pieces).head? = some '"' ∧ Separated pieces

/-- What is documented of the gateway: the variables of a template are replaced by
their texts as they stand, and nothing else is changed. -/
def Substitutes (value : Variable → String) (fill : String → String) : Prop :=
  ∀ pieces, Separated pieces →
    fill (.ofList (assemble Variable.name pieces)) = .ofList (assemble value pieces)

/-- The variables that occur in the templates of a type. -/
def Uses (type : ResponseType) : Variable → Prop
  | .validationErrorString => type = .badRequestBody ∨ type = .badRequestParameters
  | _ => True

/-- An invalid parameter as a client reads it. -/
def invalidParameter (value : Variable → String) : Value :=
  .obj [("target", .str (value .validationErrorString)), ("errorCode", .str (value .responseType)),
    ("message", .str (value .message))]

/-- What a client reads in the response of a type: the error, for a body that is not
valid with a description of why, for invalid parameters with their details. These do
not stand where the schema has the errors. -/
structure Tells (value : Variable → String) (type : ResponseType)
    (body : List (String × Value)) : Prop where
  accepted : ErrorHandling.errorResponseSchema.Accepts (.obj body)
  errorCode : body.lookup "errorCode" = some (.str (value .responseType))
  message : body.lookup "message" = some (.str (value .message))
  description : body.lookup "description" = if type = .badRequestBody then
    some (.str (value .validationErrorString)) else none
  details : body.lookup "details" = if type = .badRequestParameters then
    some (.arr [invalidParameter value]) else none
  detail : ErrorHandling.errorSchema.Accepts (invalidParameter value)
  errors : body.lookup "errors" = none

/-! The members of the templates, with texts for their variables. -/

section
variable (value : Variable → String)

def errorMembers : List (String × Value) :=
  [("errorCode", .str (value .responseType)), ("message", .str (value .message))]

def badRequestBodyMembers : List (String × Value) :=
  errorMembers value ++ [("description", .str (value .validationErrorString))]

def badRequestParametersMembers : List (String × Value) :=
  errorMembers value ++ [("details", .arr [invalidParameter value])]

end

/-! The pieces of the texts that are written for them. -/

/-- The text from the end of a member's variable to the variable of the next member. -/
def nextMember (key : String) : List Char := '"' :: ',' :: quote key ++ [':', '"']

def errorPieces (key : String) (rest : List Piece) : List Piece :=
  .kept ('\x7b' :: quote key ++ [':', '"']) :: .replaced .responseType ::
    .kept (nextMember "message") :: .replaced .message :: rest

def plainPieces : List Piece := errorPieces "errorCode" [.kept ['"', '\x7d']]

def badRequestBodyPieces : List Piece :=
  errorPieces "errorCode" [.kept (nextMember "description"), .replaced .validationErrorString,
    .kept ['"', '\x7d']]

def badRequestParametersPieces : List Piece :=
  errorPieces "errorCode" [.kept ('"' :: ',' :: quote "details" ++ [':', '[', '\x7b'] ++
      quote "target" ++ [':', '"']), .replaced .validationErrorString,
    .kept (nextMember "errorCode"), .replaced .responseType, .kept (nextMember "message"),
    .replaced .message, .kept ['"', '\x7d', ']', '\x7d']]

/-- The variable has a text that stands in a JSON string as it is. -/
def Plain (value : Variable → String) (v : Variable) : Prop := ∀ c ∈ (value v).toList, Unescaped c

theorem plain_of_all {value : Variable → String} {v : Variable}
    (h : (value v).toList.all (fun c => decide (Unescaped c)) = true) : Plain value v :=
  fun c hc => of_decide_eq_true (List.all_eq_true.mp h c hc)

theorem plain_name (v : Variable) : Plain Variable.name v := by
  cases v <;> exact plain_of_all rfl

section
variable {value : Variable → String}

theorem quote_plain {v : Variable} (h : Plain value v) :
    quote (value v) = '"' :: (value v).toList ++ ['"'] :=
  quote_unescaped h

theorem serialize_errorMembers (hcode : Plain value .responseType)
    (hmessage : Plain value .message) :
    serialize (.obj (errorMembers value)) = some (assemble value plainPieces) := by
  show some ('\x7b' :: [','].intercalate [quote "errorCode" ++ ':' :: quote (value .responseType),
    quote "message" ++ ':' :: quote (value .message)] ++ ['\x7d']) = _
  rw [quote_plain hcode, quote_plain hmessage]
  simp [assemble, plainPieces, errorPieces, nextMember, List.intercalate_cons_cons]

theorem serialize_badRequestBodyMembers (hcode : Plain value .responseType)
    (hmessage : Plain value .message) (hdetail : Plain value .validationErrorString) :
    serialize (.obj (badRequestBodyMembers value)) =
      some (assemble value badRequestBodyPieces) := by
  show some ('\x7b' :: [','].intercalate [quote "errorCode" ++ ':' :: quote (value .responseType),
    quote "message" ++ ':' :: quote (value .message),
    quote "description" ++ ':' :: quote (value .validationErrorString)] ++ ['\x7d']) = _
  rw [quote_plain hcode, quote_plain hmessage, quote_plain hdetail]
  simp [assemble, badRequestBodyPieces, errorPieces, nextMember, List.intercalate_cons_cons]

theorem serialize_badRequestParametersMembers (hcode : Plain value .responseType)
    (hmessage : Plain value .message) (hdetail : Plain value .validationErrorString) :
    serialize (.obj (badRequestParametersMembers value)) =
      some (assemble value badRequestParametersPieces) := by
  show some ('\x7b' :: [','].intercalate [quote "errorCode" ++ ':' :: quote (value .responseType),
    quote "message" ++ ':' :: quote (value .message),
    quote "details" ++ ':' :: ('[' :: [','].intercalate ['\x7b' :: [','].intercalate
      [quote "target" ++ ':' :: quote (value .validationErrorString),
        quote "errorCode" ++ ':' :: quote (value .responseType),
        quote "message" ++ ':' :: quote (value .message)] ++ ['\x7d']] ++ [']'])] ++ ['\x7d']) = _
  rw [quote_plain hcode, quote_plain hmessage, quote_plain hdetail]
  simp [assemble, badRequestParametersPieces, errorPieces, nextMember, List.intercalate_cons_cons]

/-- A template that is written as its pieces is read, once it is filled, as the members
with the texts of the variables. -/
theorem parse_fill {fill : String → String} (hfill : Substitutes value fill)
    (members : (Variable → String) → List (String × Value)) {pieces : List Piece}
    (hpieces : Separated pieces)
    (htemplate : serialize (.obj (members Variable.name)) = some (assemble Variable.name pieces))
    (hwritten : serialize (.obj (members value)) = some (assemble value pieces))
    (hwell : WellFormed (.obj (members value)))
    (hkept : kept (.obj (members value)) = .obj (members value)) :
    Json.parse (fill ((stringify (.obj (members Variable.name))).getD "")) =
      .ok (.obj (members value)) := by
  have hparse := parse_serialize hwell hwritten
  have htext : (stringify (.obj (members Variable.name))).getD "" =
      .ofList (assemble Variable.name pieces) := by
    unfold stringify
    rw [htemplate]
    rfl
  rw [htext, hfill pieces hpieces, hparse, hkept]

end

theorem separated_plainPieces : Separated plainPieces :=
  ⟨by decide, rfl, by decide, rfl, by decide, trivial⟩

theorem separated_badRequestBodyPieces : Separated badRequestBodyPieces :=
  ⟨by decide, rfl, by decide, rfl, by decide, rfl, by decide, trivial⟩

theorem separated_badRequestParametersPieces : Separated badRequestParametersPieces :=
  ⟨by decide, rfl, by decide, rfl, by decide, rfl, by decide, rfl, by decide, rfl, by decide,
    trivial⟩

theorem template_cases : ∀ response ∈ gatewayResponses,
    (response.type ≠ .badRequestBody ∧ response.type ≠ .badRequestParameters ∧
      response.template = errorTemplate) ∨
    (response.type = .badRequestBody ∧ response.template = badRequestBodyTemplate) ∨
    (response.type = .badRequestParameters ∧
      response.template = badRequestParametersTemplate) := by
  decide

section
variable (value : Variable → String)

theorem wellFormed_errorMembers : WellFormed (.obj (errorMembers value)) :=
  ⟨ordered_of_names (by simp only [errorMembers, List.forall_mem_cons]; decide)
    (by simp [errorMembers]), trivial, trivial, trivial⟩

theorem wellFormed_badRequestBodyMembers : WellFormed (.obj (badRequestBodyMembers value)) :=
  ⟨ordered_of_names (by simp only [badRequestBodyMembers, errorMembers, List.cons_append,
      List.nil_append, List.forall_mem_cons]; decide)
    (by simp [badRequestBodyMembers, errorMembers]), trivial, trivial, trivial, trivial⟩

theorem wellFormed_invalidParameter : WellFormed (invalidParameter value) :=
  ⟨ordered_of_names (by simp only [List.forall_mem_cons]; decide) (by simp), trivial, trivial,
    trivial, trivial⟩

theorem wellFormed_badRequestParametersMembers :
    WellFormed (.obj (badRequestParametersMembers value)) :=
  ⟨ordered_of_names (by simp only [badRequestParametersMembers, errorMembers, List.cons_append,
      List.nil_append, List.forall_mem_cons]; decide)
    (by simp [badRequestParametersMembers, errorMembers]), trivial, trivial,
    ⟨wellFormed_invalidParameter value, trivial⟩, trivial⟩

end

section
variable {value : Variable → String} {type : ResponseType} {body : List (String × Value)}

theorem errorSchema_accepts (value : Variable → String) :
    ErrorHandling.errorSchema.Accepts (invalidParameter value) := by
  have htext : ∀ (s : String) (v : Value), some (.str s) = some v → Schema.string.Accepts v := by
    rintro s v ⟨⟩
    exact Schema.accepts_str s
  rw [ErrorHandling.errorSchema, invalidParameter, Schema.accepts_object]
  refine ⟨?_, htext _, htext _, htext _, trivial⟩
  simp only [List.forall_mem_cons]
  exact ⟨rfl, rfl, rfl, List.forall_mem_nil _⟩

/-- What is found under the documented names is what the schema asks for. -/
theorem accepts_of_lookups {responseType message : String} (description : Option String)
    (hcode : body.lookup "errorCode" = some (.str responseType))
    (hmessage : body.lookup "message" = some (.str message))
    (hdescription : body.lookup "description" = description.map .str)
    (herrors : body.lookup "errors" = none) :
    ErrorHandling.errorResponseSchema.Accepts (.obj body) := by
  have hcode' : body.lookup "errorCode" = (some responseType).map .str := hcode
  have hmessage' : body.lookup "message" = (some message).map .str := hmessage
  rw [ErrorHandling.errorResponseSchema, Schema.accepts_object]
  refine ⟨?_, Schema.accepts_text hcode', Schema.accepts_text hmessage',
    Schema.accepts_text hdescription, ?_, trivial⟩
  · simp only [List.forall_mem_cons, hcode, hmessage]
    simp
  · intro v hv
    rw [herrors] at hv
    cases hv

theorem tells_errorMembers (value : Variable → String) (hbody : type ≠ .badRequestBody)
    (hparameters : type ≠ .badRequestParameters) : Tells value type (errorMembers value) where
  accepted := accepts_of_lookups none rfl rfl rfl rfl
  errorCode := rfl
  message := rfl
  description := (if_neg hbody).symm
  details := (if_neg hparameters).symm
  detail := errorSchema_accepts value
  errors := rfl

theorem tells_badRequestBodyMembers (value : Variable → String) :
    Tells value .badRequestBody (badRequestBodyMembers value) where
  accepted := accepts_of_lookups (some _) rfl rfl rfl rfl
  errorCode := rfl
  message := rfl
  description := rfl
  details := rfl
  detail := errorSchema_accepts value
  errors := rfl

theorem tells_badRequestParametersMembers (value : Variable → String) :
    Tells value .badRequestParameters (badRequestParametersMembers value) where
  accepted := accepts_of_lookups none rfl rfl rfl rfl
  errorCode := rfl
  message := rfl
  description := rfl
  details := rfl
  detail := errorSchema_accepts value
  errors := rfl

end

/-- Whatever went wrong: if the texts of the error that a response uses need no escape,
the response of the gateway is read as the error. -/
theorem gateway_tells (value : Variable → String) (fill : String → String)
    (hfill : Substitutes value fill) (response : GatewayResponse)
    (hresponse : response ∈ gatewayResponses)
    (hplain : ∀ v, Uses response.type v → Plain value v) :
    ∃ body, Json.parse (fill response.templateText) = .ok (.obj body) ∧
      Tells value response.type body := by
  have hcode := hplain .responseType trivial
  have hmessage := hplain .message trivial
  unfold GatewayResponse.templateText
  rcases template_cases response hresponse with
    ⟨hbody, hparameters, heq⟩ | ⟨htype, heq⟩ | ⟨htype, heq⟩
  · have hparse := parse_fill hfill errorMembers separated_plainPieces
      (serialize_errorMembers (plain_name _) (plain_name _))
      (serialize_errorMembers hcode hmessage) (wellFormed_errorMembers value) rfl
    rw [heq]
    exact ⟨_, hparse, tells_errorMembers value hbody hparameters⟩
  · have hdetail := hplain .validationErrorString (Or.inl htype)
    have hparse := parse_fill hfill badRequestBodyMembers
      separated_badRequestBodyPieces
      (serialize_badRequestBodyMembers (plain_name _) (plain_name _) (plain_name _))
      (serialize_badRequestBodyMembers hcode hmessage hdetail)
      (wellFormed_badRequestBodyMembers value) rfl
    rw [heq]
    exact ⟨_, hparse, htype ▸ tells_badRequestBodyMembers value⟩
  · have hdetail := hplain .validationErrorString (Or.inr htype)
    have hparse := parse_fill hfill badRequestParametersMembers
      separated_badRequestParametersPieces
      (serialize_badRequestParametersMembers (plain_name _) (plain_name _) (plain_name _))
      (serialize_badRequestParametersMembers hcode hmessage hdetail)
      (wellFormed_badRequestParametersMembers value) rfl
    rw [heq]
    exact ⟨_, hparse, htype ▸ tells_badRequestParametersMembers value⟩

/-! A gateway that replaces every `$` with what follows it up to the next quote. -/

section
variable (inserted : List Char → List Char)

def render : List Char → List Char
  | [] => []
  | c :: cs =>
    if c = '$' then inserted (cs.takeWhile (· ≠ '"')) ++ render (cs.dropWhile (· ≠ '"'))
    else c :: render cs
termination_by cs => cs.length
decreasing_by
  · exact Nat.lt_succ_of_le (List.dropWhile_suffix _).length_le
  · exact Nat.lt_succ_self _

variable {inserted}

theorem render_kept {text : List Char} (h : '$' ∉ text) (rest : List Char) :
    render inserted (text ++ rest) = text ++ render inserted rest := by
  induction text with
  | nil => rfl
  | cons c cs ih =>
    rw [List.mem_cons, not_or] at h
    rw [List.cons_append, render, if_neg (Ne.symm h.1), ih h.2, List.cons_append]

theorem render_variable {name : List Char} (h : ∀ c ∈ name, c ≠ '"') {rest : List Char}
    (hrest : rest.head? = some '"') :
    render inserted ('$' :: name ++ rest) = inserted name ++ render inserted rest := by
  obtain ⟨tail, rfl⟩ := List.head?_eq_some_iff.mp hrest
  have hall : ∀ c ∈ name, decide (c ≠ '"') = true := fun c hc => decide_eq_true (h c hc)
  rw [List.cons_append, render, if_pos rfl, List.takeWhile_append_of_pos hall,
    List.dropWhile_append_of_pos hall, List.takeWhile_cons_of_neg (by simp),
    List.dropWhile_cons_of_neg (by simp), List.append_nil]

end

/-- It substitutes the texts that it inserts for the names of the variables. -/
theorem substitutes_render {value : Variable → String} (inserted : List Char → List Char)
    (h : ∀ v : Variable, inserted v.name.toList.tail = (value v).toList) :
    Substitutes value fun template => .ofList (render inserted template.toList) := by
  intro pieces hpieces
  show String.ofList (render inserted (String.ofList _).toList) = _
  rw [String.toList_ofList]
  congr 1
  induction pieces with
  | nil => rw [assemble, List.flatMap_nil, render]; rfl
  | cons piece pieces ih =>
    cases piece with
    | kept text =>
      obtain ⟨htext, hrest⟩ := hpieces
      exact (render_kept htext _).trans (congrArg (text ++ ·) (ih hrest))
    | replaced v =>
      obtain ⟨hquote, hrest⟩ := hpieces
      have hname : v.name.toList = '$' :: v.name.toList.tail := by
        cases v <;> rfl
      have hall : v.name.toList.tail.all (fun c => decide (c ≠ '"')) = true := by
        cases v <;> rfl
      have hquotes : ∀ c ∈ v.name.toList.tail, c ≠ '"' :=
        fun c hc => of_decide_eq_true (List.all_eq_true.mp hall c hc)
      show render inserted (v.name.toList ++ assemble Variable.name pieces) = _
      rw [hname, render_variable hquotes hquote, h v, ih hrest]
      rfl

/-- The texts for a request without a parameter that is required. -/
def missingId : Variable → String
  | .responseType => "BAD_REQUEST_PARAMETERS"
  | .message => "Missing required request parameters: [id]"
  | .validationErrorString => "Missing required request parameters: [id]"

def insertedId (name : List Char) : List Char :=
  if name = "context.error.responseType".toList then "BAD_REQUEST_PARAMETERS".toList
  else "Missing required request parameters: [id]".toList

theorem gateway_tells_missingId :
    ∃ body, Json.parse (.ofList (render insertedId (GatewayResponse.templateText
        ⟨"BadRequestParameters", .badRequestParameters, none, badRequestParametersTemplate⟩).toList)) =
          .ok (.obj body) ∧ Tells missingId .badRequestParameters body := by
  have hfill : Substitutes missingId _ := substitutes_render insertedId (by
    intro v
    cases v <;> decide)
  have hplain : ∀ v, Plain missingId v := by
    intro v
    cases v <;> exact plain_of_all rfl
  exact gateway_tells missingId _ hfill _ (List.mem_cons_of_mem _ List.mem_cons_self)
    fun v _ => hplain v

end Ovipro.VersionedOpenApi
