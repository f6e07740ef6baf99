import OviproApi.Ecma.JsonRoundTrip
import OviproApi.Ecma.Text
import OviproApi.Machine

/-! The custom resource that starts the chain of init functions: what it invokes,
what it hands on to the functions after the first one, and what it reports to
CloudFormation. -/

namespace Ovipro.InitChain

inductive RequestType
  | create
  | update
  | delete
  | other (text : String)
  deriving DecidableEq, Repr

structure CloudFormationCustomResourceEvent where
  requestType : RequestType
  requestId : String
  stackId : String
  logicalResourceId : String
  physicalResourceId : String
  deriving DecidableEq, Repr

inductive Status
  | success
  | failed
  deriving DecidableEq, Repr

structure CloudFormationCustomResourceResponse where
  physicalResourceId : String
  status : Status
  requestId : String
  stackId : String
  logicalResourceId : String
  reason : String
  deriving DecidableEq, Repr

structure InvokeRequest where
  functionName : String
  payload : String
  invocationType : String
  deriving DecidableEq, Repr

structure InvokeResponse where
  functionError : Option String
  deriving DecidableEq, Repr

/-- The white space and line terminators that `trim` removes. -/
def isWhiteSpace (c : Char) : Bool :=
  [0x09, 0x0A, 0x0B, 0x0C, 0x0D, 0x20, 0xA0, 0x1680, 0x2028, 0x2029, 0x202F, 0x205F, 0x3000,
    0xFEFF].contains c.toNat || (0x2000 ≤ c.toNat && c.toNat ≤ 0x200A)

def trim (cs : List Char) : List Char := (cs.dropWhile isWhiteSpace).rdropWhile isWhiteSpace

theorem trim_subset (cs : List Char) : trim cs ⊆ cs := by
  have hright := (List.rdropWhile_prefix isWhiteSpace (cs.dropWhile isWhiteSpace)).subset
  have hleft := (List.dropWhile_suffix isWhiteSpace (l := cs)).subset
  exact fun c hc => hleft (hright hc)

theorem trim_trim (cs : List Char) : trim (trim cs) = trim cs := by
  have hprefix := List.rdropWhile_prefix isWhiteSpace (cs.dropWhile isWhiteSpace)
  have hstart := Ecma.dropWhile_eq_self_of_prefix hprefix (List.dropWhile_idempotent ..)
  unfold trim
  rw [hstart, List.rdropWhile_idempotent]

def chainedArns (initChain : Option String) : List String :=
  let chainedNonVerifiedArns := (initChain.getD "").toList.splitOn ','
  ((chainedNonVerifiedArns.map trim).filter fun arn => arn.length > 0).map String.ofList

/-- An entry as it comes out of a chain. -/
structure IsEntry (cs : List Char) : Prop where
  ne_nil : cs ≠ []
  no_comma : ',' ∉ cs
  trimmed : trim cs = cs

theorem isEntry_of_mem {initChain : Option String} {arn : String}
    (h : arn ∈ chainedArns initChain) : IsEntry arn.toList := by
  obtain ⟨cs, hcs, rfl⟩ := List.mem_map.mp h
  obtain ⟨hpiece, hlength⟩ := List.mem_filter.mp hcs
  obtain ⟨piece, hsplit, rfl⟩ := List.mem_map.mp hpiece
  rw [String.toList_ofList]
  refine ⟨?_, ?_, trim_trim piece⟩
  · exact List.ne_nil_of_length_pos (of_decide_eq_true hlength)
  · exact fun hcomma => Ecma.not_mem_of_mem_splitOn hsplit (trim_subset piece hcomma)

theorem childChain_subset {initChain : Option String} {arn : String} {childChain : List String}
    (h : chainedArns initChain = arn :: childChain) : childChain ⊆ chainedArns initChain := by
  rw [h]
  exact List.subset_cons_self arn childChain

theorem isEntry_of_childChain {initChain : Option String} {arn : String} {childChain : List String}
    (h : chainedArns initChain = arn :: childChain) : ∀ child ∈ childChain, IsEntry child.toList :=
  fun _ hmem => isEntry_of_mem (childChain_subset h hmem)

def join (arns : List String) : String := .ofList ([','].intercalate (arns.map String.toList))

theorem splitOn_join {arns : List String} (hne : arns ≠ [])
    (h : ∀ arn ∈ arns, IsEntry arn.toList) :
    (join arns).toList.splitOn ',' = arns.map String.toList := by
  unfold join
  rw [String.toList_ofList]
  apply List.splitOn_intercalate
  · intro cs hcs
    obtain ⟨arn, harn, rfl⟩ := List.mem_map.mp hcs
    exact (h arn harn).no_comma
  · simpa using hne

/-- Splitting undoes joining: nothing is trimmed and no entry is dropped. -/
theorem chainedArns_join {arns : List String} (h : ∀ arn ∈ arns, IsEntry arn.toList) :
    chainedArns (some (join arns)) = arns := by
  by_cases hne : arns = []
  · subst hne
    decide
  have htrim : (arns.map String.toList).map trim = arns.map String.toList := by
    rw [List.map_map]
    exact List.map_congr_left fun arn harn => (h arn harn).trimmed
  have hfilter : (arns.map String.toList).filter (fun arn => arn.length > 0) =
      arns.map String.toList := by
    rw [List.filter_eq_self]
    intro cs hcs
    obtain ⟨arn, harn, rfl⟩ := List.mem_map.mp hcs
    exact decide_eq_true (List.length_pos_iff.mpr (h arn harn).ne_nil)
  have hid : String.ofList ∘ String.toList = id := funext fun _ => String.ofList_toList
  unfold chainedArns
  show (((((join arns).toList.splitOn ',').map trim).filter fun arn => arn.length > 0).map
    String.ofList) = arns
  rw [splitOn_join hne h, htrim, hfilter, List.map_map, hid, List.map_id]

def payload (childChain : List String) : String :=
  if childChain.length > 0 then "\x7b \"chain\": \"" ++ join childChain ++ "\" \x7d" else "\x7b\x7d"

theorem parse_payload_nil : Ecma.Json.parse (payload []) = .ok (.obj []) := by decide

/-- Entries that stand in a JSON text as they are: no quote, no backslash and no
control character. -/
def Unescaped (arns : List String) : Prop :=
  ∀ arn ∈ arns, ∀ c ∈ arn.toList, Ecma.Json.Unescaped c

instance (arns : List String) : Decidable (Unescaped arns) :=
  @List.decidableBAll String (fun arn => ∀ c ∈ arn.toList, Ecma.Json.Unescaped c)
    (fun arn => List.decidableBAll Ecma.Json.Unescaped arn.toList) arns

theorem Unescaped.subset {arns childChain : List String} (h : Unescaped arns)
    (hsub : childChain ⊆ arns) : Unescaped childChain :=
  fun arn harn => h arn (hsub harn)

theorem unescaped_join {arns : List String} (h : Unescaped arns) :
    ∀ c ∈ (join arns).toList, Ecma.Json.Unescaped c := by
  intro c hc
  unfold join at hc
  rw [String.toList_ofList] at hc
  rcases Ecma.mem_of_mem_intercalate hc with rfl | ⟨cs, hcs, hc⟩
  · decide
  · obtain ⟨arn, harn, rfl⟩ := List.mem_map.mp hcs
    exact h arn harn c hc

theorem payload_toList {childChain : List String} (hne : childChain ≠ [])
    (h : Unescaped childChain) :
    (payload childChain).toList = '\x7b' :: ' ' :: (Ecma.Json.quote "chain" ++ ':' :: ' ' ::
      (Ecma.Json.quote (join childChain) ++ [' ', '\x7d'])) := by
  have hlength : childChain.length > 0 := List.length_pos_iff.mpr hne
  have hopen : "\x7b \"chain\": \"".toList =
      '\x7b' :: ' ' :: (Ecma.Json.quote "chain" ++ [':', ' ', '"']) := by decide
  have hclose : "\" \x7d".toList = ['"', ' ', '\x7d'] := rfl
  unfold payload
  rw [if_pos hlength, String.toList_append, String.toList_append, hopen, hclose,
    Ecma.Json.quote_unescaped (unescaped_join h)]
  simp only [List.cons_append, List.append_assoc, List.nil_append]

/-- The entries stand unescaped in the payload, and are read back as they are. -/
theorem parse_payload {childChain : List String} (hne : childChain ≠ [])
    (h : Unescaped childChain) :
    Ecma.Json.parse (payload childChain) = .ok (.obj [("chain", .str (join childChain))]) := by
  have htext := payload_toList hne h
  have hlength : 1 ≤ (payload childChain).toList.length := by
    rw [htext]
    exact Nat.succ_pos _
  have hthree : 3 ≤ 2 * (payload childChain).toList.length + 1 := by omega
  obtain ⟨fuel, hfuel⟩ := Nat.exists_eq_add_of_le hthree
  have hvalue : Ecma.Json.parseValue (fuel + 1) (' ' ::
      (Ecma.Json.quote (join childChain) ++ [' ', '\x7d'])) =
        some (.str (join childChain), [' ', '\x7d']) := by
    rw [Ecma.Json.parseValue_blank (by decide), Ecma.Json.parseValue_quote]
  have hmembers := @Ecma.Json.parseMembers_last _ [] "chain" _ _ [] _ hvalue rfl
  rw [Ecma.Json.quote_append] at hmembers
  have hopen : ∀ cs, Ecma.Json.skipWhitespace (' ' :: '"' :: cs) = '"' :: cs := fun _ => rfl
  have hparse := Ecma.Json.parseValue_members (hopen _) hmembers
  unfold Ecma.Json.parse
  rw [hfuel, htext, Nat.add_comm 3 fuel, Ecma.Json.quote_append, hparse]
  rfl

def invokeRequest (arn : String) (childChain : List String) : InvokeRequest where
  functionName := arn
  payload := payload childChain
  invocationType := "Event"

section
variable (lambda : InvokeRequest → Except String InvokeResponse)

/-- The `try` block, with the invocations that it makes. A `FunctionError` in
the response is only logged. -/
def invokeFirst : List String → List InvokeRequest × Except String Unit
  | [] => ([], .ok ())
  | arn :: childChain =>
    let request := invokeRequest arn childChain
    match lambda request with
    | .error e => ([request], .error e)
    -- no difference is made between a response with and without an error
    | .ok _ => ([request], .ok ())

/-- An error is caught and logged. -/
def invokeInitChain (initChain : Option String) : List InvokeRequest × Except String Unit :=
  match invokeFirst lambda (chainedArns initChain) with
  | (requests, .ok ()) => (requests, .ok ())
  | (requests, .error _) => (requests, .ok ())

def response (event : CloudFormationCustomResourceEvent) (physicalId : String) (status : Status)
    (reason : String) : CloudFormationCustomResourceResponse where
  physicalResourceId := physicalId
  status := status
  requestId := event.requestId
  stackId := event.stackId
  logicalResourceId := event.logicalResourceId
  reason := reason

def onCreate (initChain : Option String) (event : CloudFormationCustomResourceEvent) :
    List InvokeRequest × CloudFormationCustomResourceResponse :=
  let physicalId := "DatabaseInitMigrationResource"
  match invokeInitChain lambda initChain with
  | (requests, .ok ()) =>
    (requests, response event physicalId .success "created database and user for migrations")
  | (requests, .error e) => (requests, response event physicalId .failed s!"failed with error {e}")

def onDelete (event : CloudFormationCustomResourceEvent) : CloudFormationCustomResourceResponse :=
  response event event.physicalResourceId .success "deleted resource successfully"

def onUpdate (initChain : Option String) (event : CloudFormationCustomResourceEvent) :
    List InvokeRequest × CloudFormationCustomResourceResponse :=
  let physicalId := event.physicalResourceId
  match invokeInitChain lambda initChain with
  | (requests, .ok ()) => (requests, response event physicalId .success "updated resource successfully")
  | (requests, .error e) => (requests, response event physicalId .failed s!"failed with error {e}")

def handler (initChain : Option String) (event : CloudFormationCustomResourceEvent) :
    List InvokeRequest × Except String CloudFormationCustomResourceResponse :=
  match event.requestType with
  | .create => let (requests, response) := onCreate lambda initChain event; (requests, .ok response)
  | .update => let (requests, response) := onUpdate lambda initChain event; (requests, .ok response)
  | .delete => ([], .ok (onDelete event))
  | .other _ => ([], .error "RequestType is invalid!")

/-- The invocation of a function whose response carries no error. -/
def Accepts (request : InvokeRequest) : Prop :=
  ∃ response, lambda request = .ok response ∧ response.functionError.getD "" = ""

/-- The chain has a first function, and its invocation is accepted. -/
def FirstAccepted (initChain : Option String) : Prop :=
  ∃ arn childChain, chainedArns initChain = arn :: childChain ∧
    Accepts lambda (invokeRequest arn childChain)

/-- The handler answers `SUCCESS` exactly if the first function was accepted,
and `FAILED` for the event if its invocation was rejected or carries an error. -/
structure ReportsFaithfully (initChain : Option String)
    (event : CloudFormationCustomResourceEvent) : Prop where
  success : (∃ response, (handler lambda initChain event).2 = .ok response ∧
    response.status = .success) ↔ FirstAccepted lambda initChain
  failed : ∀ arn childChain, chainedArns initChain = arn :: childChain →
    ¬ Accepts lambda (invokeRequest arn childChain) →
    ∃ response, (handler lambda initChain event).2 = .ok response ∧ response.status = .failed ∧
      response.requestId = event.requestId ∧ response.stackId = event.stackId ∧
      response.logicalResourceId = event.logicalResourceId

variable {lambda}

/-- Whatever the invocation does, the chain counts as invoked. -/
theorem invokeInitChain_ok (initChain : Option String) :
    invokeInitChain lambda initChain = ((invokeFirst lambda (chainedArns initChain)).1, .ok ()) := by
  unfold invokeInitChain
  split <;> rename_i h <;> rw [h]

theorem handler_success {event : CloudFormationCustomResourceEvent} (initChain : Option String)
    (h : event.requestType = .create ∨ event.requestType = .update) :
    ∃ response, (handler lambda initChain event).2 = .ok response ∧ response.status = .success := by
  have hinvoke := @invokeInitChain_ok lambda initChain
  rcases h with h | h
  · unfold handler onCreate
    simp only [h, hinvoke]
    exact ⟨_, rfl, rfl⟩
  · unfold handler onUpdate
    simp only [h, hinvoke]
    exact ⟨_, rfl, rfl⟩

/-- The report is faithful exactly if the first function of the chain was
accepted, because it is always `SUCCESS`. -/
theorem reportsFaithfully_iff (lambda : InvokeRequest → Except String InvokeResponse)
    (initChain : Option String) (event : CloudFormationCustomResourceEvent)
    (h : event.requestType = .create ∨ event.requestType = .update) :
    ReportsFaithfully lambda initChain event ↔ FirstAccepted lambda initChain := by
  have hsuccess := @handler_success lambda event initChain h
  constructor
  · intro hreport
    exact hreport.success.mp hsuccess
  · intro haccepted
    refine ⟨⟨fun _ => haccepted, fun _ => hsuccess⟩, ?_⟩
    intro arn childChain harns hnot
    obtain ⟨arn', childChain', harns', haccepts⟩ := haccepted
    rw [harns] at harns'
    cases harns'
    exact absurd haccepts hnot

end

def createEvent : CloudFormationCustomResourceEvent where
  requestType := .create
  requestId := "request"
  stackId := "stack"
  logicalResourceId := "logical"
  physicalResourceId := ""

theorem reportsFaithfully_iff_createEvent :
    ReportsFaithfully (fun _ => .ok ⟨none⟩) (some "first,second") createEvent ↔
      FirstAccepted (fun _ => .ok ⟨none⟩) (some "first,second") :=
  reportsFaithfully_iff _ _ createEvent (Or.inl rfl)

theorem rejected_reports_success :
    ¬ ∀ (lambda : InvokeRequest → Except String InvokeResponse) (initChain : String)
      (event : CloudFormationCustomResourceEvent), initChain ≠ "" →
      event.requestType = .create ∨ event.requestType = .update →
      ReportsFaithfully lambda (some initChain) event := by
  intro h
  have hreport := h (fun _ => .error "AccessDeniedException") "first" createEvent (by decide)
    (Or.inl rfl)
  obtain ⟨arn, childChain, -, response, haccepted, -⟩ :=
    hreport.success.mp (handler_success _ (Or.inl rfl))
  cases haccepted

/-! The delegation of a chain: each function invokes the first entry of the
chain that it was given and hands on the others. -/

/-- A payload that tells the invoked function which ones are left to invoke. -/
structure HandsOn (payload : String) (childChain : List String) : Prop where
  empty : payload = "\x7b\x7d" ↔ childChain = []
  event : ∃ members, Ecma.Json.parse payload = .ok (.obj members) ∧ (childChain ≠ [] →
    ∃ chain, members.lookup "chain" = some (.str chain) ∧ chainedArns (some chain) = childChain)

theorem handsOn_payload {childChain : List String} (hentry : ∀ arn ∈ childChain, IsEntry arn.toList)
    (h : Unescaped childChain) : HandsOn (payload childChain) childChain := by
  by_cases hne : childChain = []
  · subst hne
    exact ⟨iff_of_true rfl rfl, [], parse_payload_nil, fun hne => absurd rfl hne⟩
  · have hparse := parse_payload hne h
    refine ⟨iff_of_false ?_ hne, _, hparse, fun _ => ⟨_, rfl, chainedArns_join hentry⟩⟩
    intro hempty
    have hnil : Ecma.Json.parse (payload childChain) = .ok (.obj []) := by
      rw [hempty]
      exact parse_payload_nil
    rw [hparse] at hnil
    cases hnil

/-- The chain that an invoked function finds in its payload. -/
def delegatedChain (request : InvokeRequest) : Except Ecma.Error (Option String) := do
  match ← (← Ecma.Json.parse request.payload).prop "chain" with
  | .str chain => return some chain
  | _ => return none

/-- The invoked function is given what is left of the chain. -/
theorem delegatedChain_invokeRequest (arn : String) {childChain : List String}
    (hentry : ∀ arn ∈ childChain, IsEntry arn.toList) (h : Unescaped childChain) :
    ∃ next, delegatedChain (invokeRequest arn childChain) = .ok next ∧
      chainedArns next = childChain := by
  unfold delegatedChain
  by_cases hne : childChain = []
  · subst hne
    refine ⟨none, ?_, by decide⟩
    show (Ecma.Json.parse (payload []) >>= _) = _
    rw [parse_payload_nil]
    rfl
  · refine ⟨some (join childChain), ?_, chainedArns_join hentry⟩
    show (Ecma.Json.parse (payload childChain) >>= _) = _
    rw [parse_payload hne h]
    rfl

section
variable (lambda : InvokeRequest → Except String InvokeResponse)

/-- One function's part: the invocation that it makes, and the chain that the
invoked function is given. -/
def delegate (initChain : Option String) :
    Except Ecma.Error (Option (InvokeRequest × Option String)) :=
  match (invokeInitChain lambda initChain).1 with
  | [] => pure none
  | request :: _ => do return some (request, ← delegatedChain request)

variable {lambda}

theorem invokeInitChain_nil {initChain : Option String} (h : chainedArns initChain = []) :
    (invokeInitChain lambda initChain).1 = [] := by
  rw [invokeInitChain_ok, h]
  rfl

theorem invokeInitChain_cons {initChain : Option String} {arn : String} {childChain : List String}
    (h : chainedArns initChain = arn :: childChain) :
    (invokeInitChain lambda initChain).1 = [invokeRequest arn childChain] := by
  rw [invokeInitChain_ok, h, invokeFirst]
  cases lambda (invokeRequest arn childChain) <;> rfl

theorem delegate_nil {initChain : Option String} (h : chainedArns initChain = []) :
    delegate lambda initChain = .ok none := by
  unfold delegate
  rw [invokeInitChain_nil h]
  rfl

theorem delegate_cons {initChain : Option String} {arn : String} {childChain : List String}
    (h : chainedArns initChain = arn :: childChain) (hclean : Unescaped (chainedArns initChain)) :
    ∃ next, delegate lambda initChain = .ok (some (invokeRequest arn childChain, next)) ∧
      chainedArns next = childChain ∧ Unescaped (chainedArns next) := by
  have hrest := hclean.subset (childChain_subset h)
  obtain ⟨next, hchain, hnext⟩ := delegatedChain_invokeRequest arn (isEntry_of_childChain h) hrest
  rw [← hnext] at hrest
  refine ⟨next, ?_, hnext, hrest⟩
  unfold delegate
  rw [invokeInitChain_cons h]
  show (delegatedChain _ >>= _) = _
  rw [hchain]
  rfl

/-- Every entry whose text needs no escape is invoked once, in order. -/
theorem delegation_invokes_each_once (lambda : InvokeRequest → Except String InvokeResponse)
    (initChain : Option String) (h : Unescaped (chainedArns initChain)) :
    (chainedArns initChain = [] → (invokeInitChain lambda initChain).1 = []) ∧
    (∀ arn childChain, chainedArns initChain = arn :: childChain →
      ∃ request, (invokeInitChain lambda initChain).1 = [request] ∧
        request.functionName = arn ∧ HandsOn request.payload childChain) ∧
    ∃ requests, Unfolds (delegate lambda) initChain requests ∧
      requests.map (fun request => request.functionName) = chainedArns initChain ∧
      ∀ requests', Unfolds (delegate lambda) initChain requests' → requests' = requests := by
  refine ⟨invokeInitChain_nil, ?_, ?_⟩
  · intro arn childChain harns
    have hpayload := handsOn_payload (isEntry_of_childChain harns)
      (h.subset (childChain_subset harns))
    exact ⟨invokeRequest arn childChain, invokeInitChain_cons harns, rfl, hpayload⟩
  · -- what is left of the chain shrinks by the invoked entry and stays free of escapes
    have hemit : ∀ chain arn childChain, Unescaped (chainedArns chain) →
        chainedArns chain = arn :: childChain →
        ∃ request next, delegate lambda chain = .ok (some (request, next)) ∧
          request.functionName = arn ∧ chainedArns next = childChain ∧
          Unescaped (chainedArns next) := by
      intro chain arn childChain hclean harns
      obtain ⟨next, hstep, hnext, hrest⟩ := delegate_cons harns hclean
      exact ⟨_, next, hstep, rfl, hnext, hrest⟩
    obtain ⟨requests, hrun, hnames⟩ := Unfolds.of_pending
      (fun _ _ harns => delegate_nil harns) hemit initChain h
    rw [← List.forall₂_map_left_iff, List.forall₂_eq_eq_eq] at hnames
    exact ⟨requests, hrun, hnames, fun _ hrun' => hrun'.unique hrun⟩

theorem delegation_invokes_each_once_three :
    chainedArns (some " first, ,second,third ") = ["first", "second", "third"] ∧
    ∃ requests, Unfolds (delegate fun _ => .ok ⟨none⟩) (some " first, ,second,third ") requests ∧
      requests.map (fun request => request.functionName) = ["first", "second", "third"] := by
  have harns : chainedArns (some " first, ,second,third ") = ["first", "second", "third"] := by
    decide
  obtain ⟨-, -, requests, hrun, hnames, -⟩ := delegation_invokes_each_once
    (fun _ => .ok ⟨none⟩) (some " first, ,second,third ") (by decide)
  rw [harns] at hnames
  exact ⟨harns, requests, hrun, hnames⟩

end

end Ovipro.InitChain
