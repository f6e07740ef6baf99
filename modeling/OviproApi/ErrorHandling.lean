import Mathlib.Data.List.Basic

/-! The errors of the API: the error codes with their numbers, the project's
own `HandlerError`, and the errors made by `http-errors`. -/

namespace Ovipro.ErrorHandling

inductive EnumErrorCode
  | badRequestParameters
  | badRequestBody
  | valueRequired
  | invalidType
  | invalidStatus
  | unauthorized
  | notFound
  | invalidId
  | invalidApiKey
  | unsupportedMediaType
  | technicalError
  | statusConflict
  deriving DecidableEq, Repr

namespace EnumErrorCode

def value : EnumErrorCode → String
  | badRequestParameters => "BAD_REQUEST_PARAMETERS"
  | badRequestBody => "BAD_REQUEST_BODY"
  | valueRequired => "VALUE_REQUIRED"
  | invalidType => "INVALID_TYPE"
  | invalidStatus => "INVALID_STATUS"
  | unauthorized => "UNAUTHORIZED"
  | notFound => "NOT_FOUND"
  | invalidId => "INVALID_ID"
  | invalidApiKey => "INVALID_API_KEY"
  | unsupportedMediaType => "UNSUPPORTED_MEDIA_TYPE"
  | technicalError => "TECHNICAL_ERROR"
  | statusConflict => "STATUS_CONFLICT"

def entries : List (String × EnumErrorCode) :=
  [("BadRequestParameters", badRequestParameters),
   ("BadRequestBody", badRequestBody),
   ("ValueRequired", valueRequired),
   ("InvalidType", invalidType),
   ("InvalidStatus", invalidStatus),
   ("Unauthorized", unauthorized),
   ("NotFound", notFound),
   ("InvalidId", invalidId),
   ("InvalidApiKey", invalidApiKey),
   ("UnsupportedMediaType", unsupportedMediaType),
   ("TechnicalError", technicalError),
   ("StatusConflict", statusConflict)]

def keys : List String := entries.map Prod.fst

def values : List EnumErrorCode := entries.map Prod.snd

end EnumErrorCode

def EnumErrorCodeNumber : List (String × Nat) :=
  [("BadRequestParameters", 400),
   ("BadRequestBody", 400),
   ("ValueRequired", 400),
   ("InvalidType", 400),
   ("InvalidStatus", 400),
   ("Unauthorized", 401),
   ("NotFound", 404),
   ("InvalidId", 404),
   ("InvalidApiKey", 404),
   ("StatusConflict", 409),
   ("UnsupportedMediaType", 415),
   ("TechnicalError", 500)]

def EnumErrorMessage.technicalError : String := "A technical error has occurred"

structure ErrorWrapper where
  target : Option String
  errorCode : EnumErrorCode
  message : String
  name : Option String
  deriving DecidableEq, Repr

/-- The constructor: an empty text counts as missing. -/
def ErrorWrapper.new (errorCode : EnumErrorCode) (message : String)
    (target name : Option String) : ErrorWrapper where
  target := target.filter (· != "")
  errorCode := errorCode
  message := message
  name := name.filter (· != "")

structure HandlerError where
  message : String
  statusCode : Nat
  errorCode : EnumErrorCode
  description : Option String
  errors : Option (List ErrorWrapper)
  deriving DecidableEq, Repr

/-- The constructor; a parameter that is not given is `none`. -/
def HandlerError.new (message : Option String) (errorCode : Option EnumErrorCode)
    (description : Option String) (errors : Option (List ErrorWrapper)) : HandlerError :=
  let errorCode := errorCode.getD .technicalError
  let errorCodeEnumKey := EnumErrorCode.keys[EnumErrorCode.values.idxOf errorCode]?
  { message := message.getD EnumErrorMessage.technicalError
    statusCode := (errorCodeEnumKey.bind fun key => EnumErrorCodeNumber.lookup key).getD 500
    errorCode := errorCode
    description := description
    errors := errors.filter fun es => es.length != 0 }

structure HttpError where
  statusCode : Nat
  message : String
  deriving DecidableEq, Repr

namespace CreateError

def notFound (message : String) : HttpError := ⟨404, message⟩

def forbidden : HttpError := ⟨403, "Forbidden"⟩

def internalServerError : HttpError := ⟨500, "Internal Server Error"⟩

end CreateError

/-- A thrown value: `other` is every value that is neither an `HttpError` nor a
`HandlerError`, a `TypeError` for instance. -/
inductive Thrown
  | httpError (e : HttpError)
  | handlerError (e : HandlerError)
  | other (message : String)
  deriving DecidableEq, Repr

def EnumErrorCode.number : EnumErrorCode → Nat
  | badRequestParameters | badRequestBody | valueRequired | invalidType | invalidStatus => 400
  | unauthorized => 401
  | notFound | invalidId | invalidApiKey => 404
  | statusConflict => 409
  | unsupportedMediaType => 415
  | technicalError => 500

theorem HandlerError.new_statusCode (message : Option String) (errorCode : EnumErrorCode)
    (description : Option String) (errors : Option (List ErrorWrapper)) :
    (HandlerError.new message (some errorCode) description errors).statusCode =
      errorCode.number := by
  cases errorCode <;> rfl

end Ovipro.ErrorHandling
