import OviproApi.Ecma.JsonLines
import OviproApi.ErrorResponses
import OviproApi.JsonUtils
import OviproApi.Machine

/-! The log of the functions: one line of JSON for each message, with the request id
of the request that logs it. -/

namespace Ovipro.Logging
open Ecma Json Sample
open ErrorHandling (wellFormed_textOrUndefined)
open Middleware (textOrUndefined)

/-- The constants of a process, as its environment gives them. -/
structure ProcessEnvironment where
  serviceName : Option String
  moduleName : Option String
  environment : Option String
  method : Option String
  apiVersion : Option String

/-- `value || fallback`. -/
def orElse (value : Option String) (fallback : String) : String :=
  if value.getD "" = "" then fallback else value.getD ""

inductive LogLevel
  | trace
  | debug
  | info
  | warn
  | error
  | fatal
  deriving DecidableEq, Repr

def LogLevel.name : LogLevel → String
  | trace => "Trace"
  | debug => "Debug"
  | info => "Info"
  | warn => "Warn"
  | error => "Error"
  | fatal => "Fatal"

def toUpperCase (name : String) : String := .ofList (name.toList.map Char.toUpper)

structure ErrorObject where
  name : String
  message : String
  stack : Option String

/-- The date is given as its ISO text. -/
structure LogMessage where
  date : String
  error : Option ErrorObject
  level : LogLevel
  loggerName : String
  message : Value

/-- The data of a log context; a field that is set to `undefined` is `none`. -/
abbrev LogContextData := List (String × Option String)

def LogContextData.field (data : LogContextData) (name : String) : Option String :=
  (data.lookup name).join

def thrownMembers (error : Option ErrorObject) : List (String × Value) :=
  [("name", textOrUndefined (error.map (·.name))),
    ("message", textOrUndefined (error.map (·.message))),
    ("extendedStacktrace", textOrUndefined (error.bind (·.stack)))]

/-- What is logged for a message in a context, or outside of any. -/
def entryMembers (env : ProcessEnvironment) (store : Option LogContextData) (msg : LogMessage) :
    List (String × Value) :=
  let data := store.getD []
  [("timestamp", .str msg.date),
    ("thrown", .obj (thrownMembers msg.error)),
    ("level", .str (toUpperCase msg.level.name)),
    ("loggerName", .str msg.loggerName),
    ("message", msg.message),
    ("serviceName", .str (orElse env.serviceName "UNDEFINED")),
    ("moduleName", .str (orElse env.moduleName "UNDEFINED")),
    ("environment", .str (orElse env.environment "UNDEFINED")),
    ("method", .str (orElse env.method "UNDEFINED")),
    ("requestId", textOrUndefined (data.field "requestId")),
    ("domainName", textOrUndefined (data.field "domainName")),
    ("version", .str (orElse env.apiVersion "v1"))]

def entry (env : ProcessEnvironment) (store : Option LogContextData) (msg : LogMessage) : Value :=
  .obj (entryMembers env store msg)

/-- What `console.log` writes for it. -/
def doLog (env : ProcessEnvironment) (store : Option LogContextData) (msg : LogMessage) :
    List Char :=
  ((JsonUtils.stringifyClean (entry env store msg)).getD "undefined").toList ++ ['\n']

def getRequestContextData (event : APIGatewayEvent) : LogContextData :=
  let requestId := event.headers.bind fun headers => headers.lookup "Request-ID"
  [("requestId", requestId.filter (· != ""))]

def setField (name : String) (value : Option String) : LogContextData → LogContextData
  | [] => [(name, value)]
  | (k, v) :: data => if k = name then (name, value) :: data else (k, v) :: setField name value data

/-- `{ ...data, ...context }`. -/
def spread (data context : LogContextData) : LogContextData :=
  context.foldl (fun data field => setField field.1 field.2 data) data

/-- The data of the asynchronous contexts that belong to a request, and what was written. -/
structure State where
  contexts : List LogContextData
  console : List Char

/-- A request is provided with a context of its own, an asynchronous call goes on in one
that starts with the data of its caller, and in a context, or outside of all, data is
appended to it or a message is logged. -/
inductive Action
  | provideLogContext (event : APIGatewayEvent)
  | fork (caller : Nat)
  | appendToLogContext (context : Option Nat) (data : LogContextData)
  | doLog (context : Option Nat) (msg : LogMessage)

section
variable (env : ProcessEnvironment)

def step (s : State) : Action → Option State
  | .provideLogContext event =>
    some { s with contexts := s.contexts ++ [getRequestContextData event] }
  | .fork caller =>
    s.contexts[caller]?.map fun data => { s with contexts := s.contexts ++ [data] }
  -- without a context there is nothing to append to
  | .appendToLogContext none _ => some s
  | .appendToLogContext (some i) data =>
    s.contexts[i]?.map fun old => { s with contexts := s.contexts.set i (spread old data) }
  | .doLog none msg => some { s with console := s.console ++ doLog env none msg }
  | .doLog (some i) msg =>
    s.contexts[i]?.map fun data => { s with console := s.console ++ doLog env (some data) msg }

def process : Machine State Action where
  init := ⟨[], []⟩
  step := step env

end

/-! What the console is to tell, from the calls alone. -/

/-- The event of the request that a context belongs to, and the domain name that was
appended last in it or in the context that it was forked from. -/
structure Origin where
  event : APIGatewayEvent
  domainName : Option String

def Origin.append (data : LogContextData) (origin : Origin) : Origin :=
  { origin with domainName := (data.reverse.lookup "domainName").getD origin.domainName }

def Action.enter (origins : List Origin) : Action → List Origin
  | provideLogContext event => origins ++ [⟨event, none⟩]
  | fork caller => origins ++ origins[caller]?.toList
  | appendToLogContext (some i) data => origins.modify i (Origin.append data)
  | _ => origins

/-- The origins of the contexts after the actions. -/
def origins (actions : List Action) : List Origin := actions.foldl Action.enter []

/-- The message of a call, with the origin of the context that it is made in. -/
def Action.call (origins : List Origin) : Action → Option (Option Origin × LogMessage)
  | doLog context msg => some (context.bind (origins[·]?), msg)
  | _ => none

def callsFrom (origins : List Origin) : List Action → List (Option Origin × LogMessage)
  | [] => []
  | action :: actions =>
    (action.call origins).toList ++ callsFrom (action.enter origins) actions

/-- The calls of `doLog`, in their order. -/
def calls (actions : List Action) : List (Option Origin × LogMessage) := callsFrom [] actions

/-- The messages are values of the language, and nobody appends a request id. -/
def Action.Proper : Action → Prop
  | appendToLogContext _ data => ∀ field ∈ data, field.1 ≠ "requestId"
  | doLog _ msg => WellFormed msg.message
  | _ => True

def levelText : LogLevel → String
  | .trace => "TRACE"
  | .debug => "DEBUG"
  | .info => "INFO"
  | .warn => "WARN"
  | .error => "ERROR"
  | .fatal => "FATAL"

/-- The member has the text of the environment, or the fallback where that is missing
or empty. -/
def Tells (members : List (String × Value)) (key : String) (value : Option String)
    (fallback : String) : Prop :=
  ∃ text, members.lookup key = some (.str text) ∧
    (value = some text ∧ text ≠ "" ∨ (value = none ∨ value = some "") ∧ text = fallback)

def lineMembers : List String :=
  ["timestamp", "thrown", "level", "loggerName", "message", "serviceName", "moduleName",
    "environment", "method", "requestId", "domainName", "version"]

/-- The members of the line of a message. Those without a value are absent, and the
request id is the header of the request. -/
structure Line (env : ProcessEnvironment) (origin : Option Origin) (msg : LogMessage)
    (members : List (String × Value)) : Prop where
  timestamp : members.lookup "timestamp" = some (.str msg.date)
  thrown : ∃ thrown, members.lookup "thrown" = some (.obj thrown) ∧
    thrown.lookup "name" = msg.error.map (fun e => .str e.name) ∧
    thrown.lookup "message" = msg.error.map (fun e => .str e.message) ∧
    thrown.lookup "extendedStacktrace" = (msg.error.bind (·.stack)).map .str
  level : members.lookup "level" = some (.str (levelText msg.level))
  loggerName : members.lookup "loggerName" = some (.str msg.loggerName)
  message : members.lookup "message" =
    if msg.message.isNullish then none else some (JsonUtils.cleaned msg.message)
  serviceName : Tells members "serviceName" env.serviceName "UNDEFINED"
  moduleName : Tells members "moduleName" env.moduleName "UNDEFINED"
  environment : Tells members "environment" env.environment "UNDEFINED"
  method : Tells members "method" env.method "UNDEFINED"
  version : Tells members "version" env.apiVersion "v1"
  requestId : ∀ v, members.lookup "requestId" = some v ↔ ∃ o headers id, origin = some o ∧
    o.event.headers = some headers ∧ headers.lookup "Request-ID" = some id ∧ id ≠ "" ∧ v = .str id
  domainName : members.lookup "domainName" = (origin.bind (·.domainName)).map .str
  others : ∀ key ∉ lineMembers, members.lookup key = none

/-- The text is the line of the call. -/
def Reads (env : ProcessEnvironment) (call : Option Origin × LogMessage) (text : List Char) :
    Prop :=
  ∃ members, Json.parse (String.ofList text) = .ok (.obj members) ∧
    Line env call.1 call.2 members

theorem origins_snoc (actions : List Action) (action : Action) :
    origins (actions ++ [action]) = action.enter (origins actions) := by
  unfold origins
  rw [List.foldl_append]
  rfl

theorem calls_snoc (actions : List Action) (action : Action) :
    calls (actions ++ [action]) = calls actions ++ (action.call (origins actions)).toList := by
  have hfrom : ∀ start, callsFrom start (actions ++ [action]) =
      callsFrom start actions ++ (action.call (actions.foldl Action.enter start)).toList := by
    induction actions with
    | nil =>
      intro start
      exact List.append_nil _
    | cons first rest ih =>
      intro start
      rw [List.cons_append, callsFrom, callsFrom, ih, List.append_assoc]
      rfl
  exact hfrom []

theorem lookup_setField (name key : String) (value : Option String) (data : LogContextData) :
    (setField name value data).lookup key = if key = name then some value else data.lookup key := by
  induction data with
  | nil =>
    unfold setField
    rw [List.lookup_cons]
    by_cases hkey : key = name
    · simp [hkey]
    · simp [hkey, beq_eq_false_iff_ne.mpr hkey]
  | cons field data ih =>
    obtain ⟨k, v⟩ := field
    unfold setField
    by_cases hk : k = name
    · subst hk
      rw [if_pos rfl, List.lookup_cons, List.lookup_cons]
      by_cases hkey : key = k
      · simp [hkey]
      · simp [hkey, beq_eq_false_iff_ne.mpr hkey]
    · rw [if_neg hk, List.lookup_cons, List.lookup_cons, ih]
      by_cases hkey : key = k
      · subst hkey
        simp [hk]
      · simp [beq_eq_false_iff_ne.mpr hkey]

/-- A field has the value that was appended last, or else keeps the one it had. -/
theorem field_spread (name : String) (data context : LogContextData) :
    (spread data context).field name = (context.reverse.lookup name).getD (data.field name) := by
  induction context using List.reverseRecOn with
  | nil => rfl
  | append_singleton context field ih =>
    obtain ⟨k, v⟩ := field
    have hspread : spread data (context ++ [(k, v)]) = setField k v (spread data context) := by
      unfold spread
      rw [List.foldl_append]
      rfl
    rw [List.reverse_concat, List.lookup_cons, hspread]
    unfold LogContextData.field at ih ⊢
    rw [lookup_setField]
    by_cases hname : name = k
    · simp [hname]
    · rw [if_neg hname, beq_eq_false_iff_ne.mpr hname]
      exact ih

theorem wellFormed_thrown (error : Option ErrorObject) :
    WellFormed (.obj (thrownMembers error)) := by
  refine ⟨ordered_of_names ?_ ?_, wellFormed_textOrUndefined _, wellFormed_textOrUndefined _,
    wellFormed_textOrUndefined _, trivial⟩
  · simp only [thrownMembers, List.forall_mem_cons]
    decide
  · simp only [thrownMembers, List.map_cons, List.map_nil]
    decide

theorem wellFormed_entry {msg : LogMessage} (h : WellFormed msg.message)
    (env : ProcessEnvironment) (store : Option LogContextData) :
    WellFormed (entry env store msg) := by
  refine ⟨ordered_of_names ?_ ?_, ?_⟩
  · simp only [entryMembers, List.forall_mem_cons]
    decide
  · simp only [entryMembers, List.map_cons, List.map_nil]
    decide
  · exact ⟨trivial, wellFormed_thrown msg.error, trivial, trivial, h, trivial, trivial, trivial,
      trivial, wellFormed_textOrUndefined _, wellFormed_textOrUndefined _, trivial, trivial⟩

/-- The fields of a context are those that its origin tells of. -/
def Carries (data : LogContextData) (origin : Origin) : Prop :=
  data.field "requestId" = (getRequestContextData origin.event).field "requestId" ∧
    data.field "domainName" = origin.domainName

theorem requestId_iff (event : APIGatewayEvent) (id : String) :
    (getRequestContextData event).field "requestId" = some id ↔
      ∃ headers, event.headers = some headers ∧ headers.lookup "Request-ID" = some id ∧ id ≠ "" := by
  show ((event.headers.bind fun headers => headers.lookup "Request-ID").filter (· != "")) =
    some id ↔ _
  rw [Option.filter_eq_some_iff, Option.bind_eq_some_iff, bne_iff_ne]
  constructor
  · rintro ⟨⟨headers, hheaders, hid⟩, hne⟩
    exact ⟨headers, hheaders, hid, hne⟩
  · rintro ⟨headers, hheaders, hid, hne⟩
    exact ⟨⟨headers, hheaders, hid⟩, hne⟩

theorem tells_of_orElse {members : List (String × Value)} {key fallback : String}
    {value : Option String} (h : members.lookup key = some (.str (orElse value fallback))) :
    Tells members key value fallback := by
  refine ⟨_, h, ?_⟩
  unfold orElse
  cases value with
  | none => exact Or.inr ⟨Or.inl rfl, rfl⟩
  | some text =>
    by_cases htext : text = ""
    · exact Or.inr ⟨Or.inr (congrArg some htext), if_pos htext⟩
    · rw [Option.getD_some, if_neg htext]
      exact Or.inl ⟨rfl, htext⟩

theorem toUpperCase_name (level : LogLevel) : toUpperCase level.name = levelText level := by
  cases level <;> rfl

theorem cleaned_textOrUndefined (text : Option String) :
    ((some (textOrUndefined text)).filter fun v => !v.isNullish).map JsonUtils.cleaned =
      text.map .str := by
  cases text <;> rfl

/-- The store that a call logs with has the fields of the origin of its context. -/
def Traced : Option LogContextData → Option Origin → Prop
  | none, origin => origin = none
  | some data, origin => ∃ o, origin = some o ∧ Carries data o

theorem Traced.requestId {store : Option LogContextData} {origin : Option Origin}
    (h : Traced store origin) (id : String) :
    (store.getD []).field "requestId" = some id ↔ ∃ o headers, origin = some o ∧
      o.event.headers = some headers ∧ headers.lookup "Request-ID" = some id ∧ id ≠ "" := by
  cases store with
  | none =>
    obtain rfl : origin = none := h
    simp [LogContextData.field]
  | some data =>
    obtain ⟨o, rfl, hrequest, -⟩ := h
    rw [Option.getD_some, hrequest, requestId_iff]
    simp

theorem Traced.domainName {store : Option LogContextData} {origin : Option Origin}
    (h : Traced store origin) :
    (store.getD []).field "domainName" = origin.bind (·.domainName) := by
  cases store with
  | none =>
    obtain rfl : origin = none := h
    rfl
  | some data =>
    obtain ⟨o, rfl, -, hdomain⟩ := h
    exact hdomain

theorem lookup_thrown (error : Option ErrorObject) (key : String) :
    (JsonUtils.cleanedMembers (thrownMembers error)).lookup key =
      (((thrownMembers error).lookup key).filter fun v => !v.isNullish).map JsonUtils.cleaned :=
  JsonUtils.lookup_cleanedMembers (by simp [thrownMembers]) key

/-- The entry of a message, with what has no value left out, is the line that tells it. -/
theorem line_entry {store : Option LogContextData} {origin : Option Origin}
    (h : Traced store origin) (env : ProcessEnvironment) (msg : LogMessage) :
    Line env origin msg (JsonUtils.cleanedMembers (entryMembers env store msg)) := by
  have hlookup : ∀ key, (JsonUtils.cleanedMembers (entryMembers env store msg)).lookup key =
      (((entryMembers env store msg).lookup key).filter fun v => !v.isNullish).map
        JsonUtils.cleaned :=
    JsonUtils.lookup_cleanedMembers (by simp [entryMembers])
  refine ⟨hlookup _, ⟨_, hlookup _, ?_, ?_, ?_⟩, ?_, hlookup _, ?_, tells_of_orElse (hlookup _),
    tells_of_orElse (hlookup _), tells_of_orElse (hlookup _), tells_of_orElse (hlookup _),
    tells_of_orElse (hlookup _), ?_, ?_, ?_⟩
  · rw [lookup_thrown]
    exact (cleaned_textOrUndefined _).trans (Option.map_map ..)
  · rw [lookup_thrown]
    exact (cleaned_textOrUndefined _).trans (Option.map_map ..)
  · rw [lookup_thrown]
    exact cleaned_textOrUndefined _
  · rw [hlookup, ← toUpperCase_name]
    rfl
  · rw [hlookup]
    show ((some msg.message).filter _).map _ = _
    cases hmessage : msg.message.isNullish <;> simp [hmessage]
  · intro v
    rw [hlookup]
    show ((some (textOrUndefined _)).filter _).map _ = some v ↔ _
    rw [cleaned_textOrUndefined, Option.map_eq_some_iff]
    constructor
    · rintro ⟨id, hid, rfl⟩
      obtain ⟨o, headers, horigin, hheaders, hlookup, hne⟩ := (h.requestId id).mp hid
      exact ⟨o, headers, id, horigin, hheaders, hlookup, hne, rfl⟩
    · rintro ⟨o, headers, id, horigin, hheaders, hlookup, hne, rfl⟩
      exact ⟨id, (h.requestId id).mpr ⟨o, headers, horigin, hheaders, hlookup, hne⟩, rfl⟩
  · rw [hlookup, ← h.domainName]
    exact cleaned_textOrUndefined _
  · intro key hkey
    have hnone : (entryMembers env store msg).lookup key = none := lookup_eq_none_of_not_mem hkey
    rw [hlookup, hnone]
    rfl

/-- What is written is one line, and reads as what is logged. -/
theorem doLog_spec {msg : LogMessage} (h : WellFormed msg.message) (env : ProcessEnvironment)
    {store : Option LogContextData} {origin : Option Origin} (htraced : Traced store origin) :
    ∃ text, doLog env store msg = lines [text] ∧ '\n' ∉ text ∧ Reads env (origin, msg) text := by
  have hentry := wellFormed_entry h env store
  have hne : JsonUtils.cleaned (entry env store msg) ≠ .undefined :=
    JsonUtils.cleaned_ne_undefined rfl
  cases htext : serialize (JsonUtils.cleaned (entry env store msg)) with
  | none => exact absurd (serialize_eq_none_iff.mp htext) hne
  | some text =>
    have hwritten : JsonUtils.stringifyClean (entry env store msg) = some (String.ofList text) := by
      rw [JsonUtils.stringifyClean_eq rfl]
      unfold stringify
      rw [htext]
      rfl
    have hparse := parse_serialize (JsonUtils.wellFormed_cleaned hentry) htext
    rw [JsonUtils.kept_cleaned hentry] at hparse
    refine ⟨text, ?_, (printable_serialize _ htext).no_newline, _, hparse,
      line_entry htraced env msg⟩
    unfold doLog lines
    rw [hwritten, Option.getD_some, String.toList_ofList, List.flatMap_singleton]

section
variable {α β : Type} {R : α → β → Prop} {xs : List α} {ys : List β}

theorem forall₂_getElem? (h : xs.Forall₂ R ys) {i : Nat} {x : α} (hx : xs[i]? = some x) :
    ∃ y, ys[i]? = some y ∧ R x y := by
  induction h generalizing i with
  | nil => cases hx
  | cons hxy hrest ih =>
    cases i with
    | zero =>
      cases hx
      exact ⟨_, rfl, hxy⟩
    | succ i => exact ih hx

theorem forall₂_set_modify (h : xs.Forall₂ R ys) {i : Nat} {x' : α} {f : β → β}
    (hnew : ∀ x y, xs[i]? = some x → R x y → R x' (f y)) :
    (xs.set i x').Forall₂ R (ys.modify i f) := by
  induction h generalizing i with
  | nil =>
    rw [List.set_nil, List.modify_nil]
    exact .nil
  | cons hxy hrest ih =>
    cases i with
    | zero => exact .cons (hnew _ _ rfl hxy) hrest
    | succ i => exact .cons hxy (ih hnew)

end

theorem Carries.spread {old : LogContextData} {origin : Origin} (h : Carries old origin)
    {data : LogContextData} (hdata : ∀ field ∈ data, field.1 ≠ "requestId") :
    Carries (spread old data) (origin.append data) := by
  have hnone : data.reverse.lookup "requestId" = none := by
    rw [List.lookup_eq_none_iff]
    intro field hfield
    rw [bne_iff_ne]
    exact (hdata field (List.mem_reverse.mp hfield)).symm
  constructor
  · rw [field_spread, hnone]
    exact h.1
  · rw [field_spread, h.2]
    rfl

/-- The contexts have the fields that their origins tell of, and the console is the
lines of the calls so far. -/
structure Invariant (env : ProcessEnvironment) (actions : List Action) (s : State) : Prop where
  contexts : s.contexts.Forall₂ Carries (origins actions)
  console : ∃ texts, s.console = lines texts ∧ (∀ text ∈ texts, '\n' ∉ text) ∧
    (calls actions).Forall₂ (Reads env) texts

section
variable {env : ProcessEnvironment} {actions : List Action} {s : State} {action : Action}

/-- An action that writes nothing leaves the lines as they are. -/
theorem Invariant.entered (h : Invariant env actions s)
    (hcall : ∀ origins, action.call origins = none) {contexts : List LogContextData}
    (hcontexts : contexts.Forall₂ Carries (action.enter (origins actions))) :
    Invariant env (actions ++ [action]) { s with contexts := contexts } := by
  constructor
  · rw [origins_snoc]
    exact hcontexts
  · rw [calls_snoc, hcall, Option.toList_none, List.append_nil]
    exact h.console

theorem Invariant.logged (h : Invariant env actions s) {context : Option Nat} {msg : LogMessage}
    {store : Option LogContextData} (hmsg : WellFormed msg.message)
    (htraced : Traced store (context.bind ((origins actions)[·]?))) :
    Invariant env (actions ++ [.doLog context msg])
      { s with console := s.console ++ doLog env store msg } := by
  obtain ⟨texts, hconsole, hlines, hcalls⟩ := h.console
  obtain ⟨text, hwritten, hline, hreads⟩ := doLog_spec hmsg env htraced
  constructor
  · rw [origins_snoc]
    exact h.contexts
  · refine ⟨texts ++ [text], ?_, ?_, ?_⟩
    · rw [hconsole, hwritten]
      exact List.flatMap_append.symm
    · intro t ht
      rcases List.mem_append.mp ht with hold | hnew
      · exact hlines t hold
      · rw [List.mem_singleton.mp hnew]
        exact hline
    · rw [calls_snoc]
      exact List.rel_append hcalls (.cons hreads .nil)

theorem Invariant.step (h : Invariant env actions s) (hproper : action.Proper) {s' : State}
    (hstep : step env s action = some s') : Invariant env (actions ++ [action]) s' := by
  cases action with
  | provideLogContext event =>
    cases hstep
    exact h.entered (fun _ => rfl) (List.rel_append h.contexts (.cons ⟨rfl, rfl⟩ .nil))
  | fork caller =>
    obtain ⟨data, hdata, rfl⟩ := Option.map_eq_some_iff.mp hstep
    obtain ⟨origin, horigin, hcarries⟩ := forall₂_getElem? h.contexts hdata
    refine h.entered (fun _ => rfl) ?_
    rw [Action.enter, horigin]
    exact List.rel_append h.contexts (.cons hcarries .nil)
  | appendToLogContext context data =>
    cases context with
    | none =>
      cases hstep
      exact h.entered (fun _ => rfl) h.contexts
    | some i =>
      obtain ⟨old, hold, rfl⟩ := Option.map_eq_some_iff.mp hstep
      refine h.entered (fun _ => rfl) (forall₂_set_modify h.contexts ?_)
      intro x origin hx hcarries
      obtain rfl : old = x := Option.some.inj (hold.symm.trans hx)
      exact hcarries.spread hproper
  | doLog context msg =>
    cases context with
    | none =>
      cases hstep
      exact h.logged hproper rfl
    | some i =>
      obtain ⟨data, hdata, rfl⟩ := Option.map_eq_some_iff.mp hstep
      exact h.logged hproper (forall₂_getElem? h.contexts hdata)

/-- Whatever the requests that are going on at the same time log, the console has one
line for each message, in the order of the calls, and each line tells the message, its
process and the request that it was logged for. -/
theorem console_reads_back (env : ProcessEnvironment) (actions : List Action) (s : State)
    (hproper : ∀ action ∈ actions, action.Proper) (hrun : (process env).run actions = some s) :
    (calls actions).Forall₂ (Reads env) (readLines s.console) := by
  have hinvariant : (∀ action ∈ actions, action.Proper) → Invariant env actions s := by
    refine Machine.run_induction (I := fun actions s =>
      (∀ action ∈ actions, action.Proper) → Invariant env actions s) ?_ ?_ hrun
    · exact fun _ => ⟨.nil, [], rfl, fun _ h => absurd h List.not_mem_nil, .nil⟩
    · intro taken before action after ih hstep hall
      have hbefore := ih fun a ha => hall a (List.mem_append_left _ ha)
      exact hbefore.step (hall action (List.mem_append_right _ (List.mem_singleton_self _))) hstep
  obtain ⟨texts, hconsole, hlines, hcalls⟩ := (hinvariant hproper).console
  rw [hconsole, readLines_lines hlines]
  exact hcalls

def requestOf (id : String) : APIGatewayEvent :=
  { headers := some [("Request-ID", id)], queryStringParameters := none,
    requestContext := ⟨none⟩, body := .undefined }

def messageOf (text : String) : LogMessage where
  date := "2022-05-02T08:00:00.000Z"
  error := none
  level := .debug
  loggerName := "Office:get"
  message := .str text

/-- Two requests that go on at the same time, the second with a call of its own. -/
def overlappingRequests : List Action :=
  [.doLog none (messageOf "Starting"), .provideLogContext (requestOf "first"),
    .provideLogContext (requestOf "second"), .fork 1, .doLog (some 0) (messageOf "A message"),
    .appendToLogContext (some 2) [("domainName", some "office")],
    .doLog (some 2) (messageOf "Two\nlines"), .doLog (some 0) (messageOf "Another message")]

def sampleEnvironment : ProcessEnvironment := ⟨some "template", none, some "dev", none, none⟩

def overlappingState : State :=
  ((process sampleEnvironment).run overlappingRequests).getD ⟨[], []⟩

theorem console_reads_back_overlapping :
    (process sampleEnvironment).run overlappingRequests = some overlappingState ∧
      (calls overlappingRequests).Forall₂ (Reads sampleEnvironment)
        (readLines overlappingState.console) := by
  have hproper : ∀ action ∈ overlappingRequests, action.Proper := by
    simp only [overlappingRequests, List.forall_mem_cons, Action.Proper, messageOf, WellFormed]
    simp
  have hrun : (process sampleEnvironment).run overlappingRequests = some overlappingState := rfl
  exact ⟨hrun, console_reads_back sampleEnvironment overlappingRequests overlappingState hproper hrun⟩

end

end Ovipro.Logging
