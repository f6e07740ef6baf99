import OviproApi.Answers
import OviproApi.Ecma.JsonRoundTrip
import OviproApi.MissingChildren

/-! A user of the declared type that is sent as the text of the authorizer: what
the text is parsed as is decided about like the user itself, whatever the order of
the members is and whatever members there are besides. -/

namespace Ovipro.Runtime
open Ecma Ecma.Json HasPermission Authorizer

section
variable {v : Value} {t : OrganizationPermission} {ps : List Value}

theorem PermissionReadsAs.kept {g : Permission} (hv : WellFormed v) (h : PermissionReadsAs v g) :
    PermissionReadsAs (kept v) g where
  permission := (prop_kept hv h.permission (by simp)).2
  inheritanceType := (prop_kept hv h.inheritanceType (by simp)).2

theorem keptElements_readAs {α : Type} {R : Value → α → Prop} {xs : List Value} {ys : List α}
    (hxs : WellFormedElements xs) (h : xs.Forall₂ R ys) (hobject : ∀ x y, R x y → x.IsObject)
    (hkept : ∀ x, ∀ y ∈ ys, WellFormed x → R x y → R (kept x) y) :
    (keptElements xs).Forall₂ R ys := by
  induction h with
  | nil => exact .nil
  | @cons x y xs ys hxy _ ih =>
    obtain ⟨members, rfl⟩ := hobject x y hxy
    have hhead := hkept _ y (List.mem_cons_self ..) hxs.1 hxy
    have htail := ih hxs.2 fun x y hy => hkept x y (List.mem_cons_of_mem _ hy)
    rw [keptElements, if_neg (by simp)]
    exact .cons hhead htail

theorem PermissionReadsAs.isObject {g : Permission} (h : PermissionReadsAs v g) : v.IsObject :=
  Value.isObject_of_prop_ne h.permission (by simp)

theorem HeadReadsAs.kept (hv : WellFormed v) (h : HeadReadsAs v t ps) :
    HeadReadsAs (kept v) t (keptElements ps) where
  id := (prop_kept hv h.id (by simp)).2
  level := (prop_kept hv h.level (by simp)).2
  permissions := (prop_kept hv h.permissions (by simp)).2
  entries := by
    have hps : WellFormed (.arr ps) := (prop_kept hv h.permissions (by simp)).1
    apply keptElements_readAs hps h.entries
    · intro x g hread
      exact hread.isObject
    · intro x g _ hx hread
      exact hread.kept hx

theorem ReadsAs.of_head {cs : List Value} (h : HeadReadsAs v t ps)
    (hcs : v.prop "children" = .ok (.arr cs)) (hforest : cs.Forall₂ ReadsAs t.children) :
    ReadsAs v t := by
  obtain ⟨id, level, children, permissions⟩ := t
  exact ⟨h.id, h.level, ⟨ps, h.permissions, h.entries⟩, cs, hcs, forestReadsAs_iff.mpr hforest⟩

theorem ReadsAs.isObject (h : ReadsAs v t) : v.IsObject := by
  obtain ⟨ps, hhead⟩ := h.head
  exact hhead.isObject

theorem ReadsAs.kept (hv : WellFormed v) (h : ReadsAs v t) : ReadsAs (kept v) t := by
  induction t using OrganizationPermission.child_wellFounded.induction generalizing v with
  | _ t ih =>
    obtain ⟨ps, hhead⟩ := h.head
    obtain ⟨cs, hcs, hforest⟩ := h.children
    obtain ⟨hwell, hkept⟩ := prop_kept hv hcs (by simp)
    apply ReadsAs.of_head (hhead.kept hv) hkept
    apply keptElements_readAs hwell hforest
    · intro x u hread
      exact hread.isObject
    · intro x u hu hx hread
      exact ih u hu hx hread

end

theorem UserReadsAs.kept {v : Value} {user : UserDetails} (hv : WellFormed v)
    (h : UserReadsAs v user) : UserReadsAs (kept v) user where
  globalPermissions := by
    have hglobal := (prop_kept hv h.globalPermissions (by simp)).2
    have helements : keptElements (user.globalPermissions.map fun p => .str (permissionText p)) =
        user.globalPermissions.map fun p => .str (permissionText p) := by
      rw [keptElements_eq_map (by simp), List.map_map]
      rfl
    rw [hglobal]
    exact congrArg (fun elements => Except.ok (Value.arr elements)) helements
  tree := by
    obtain ⟨tree, groups, htree, hgroups, hforest⟩ := h.tree
    rw [forestReadsAs_iff] at hforest
    have hne : tree ≠ .undefined := by
      rintro rfl
      cases hgroups
    obtain ⟨hwell, hkept⟩ := prop_kept hv htree hne
    obtain ⟨hwellGroups, hkeptGroups⟩ := prop_kept hwell hgroups (by simp)
    refine ⟨_, _, hkept, hkeptGroups, forestReadsAs_iff.mpr ?_⟩
    apply keptElements_readAs hwellGroups hforest
    · intro x u hread
      exact hread.isObject
    · intro x u _ hx hread
      exact hread.kept hx

/-! The searches without a guard, on units that all have their children. -/

mutual

def parsed : OrganizationPermission → ParsedOrganization
  | ⟨id, level, children, permissions⟩ => .node id level (parsedForest children) permissions

def parsedForest : List OrganizationPermission → List ParsedOrganization
  | [] => []
  | t :: ts => parsed t :: parsedForest ts

end

mutual

theorem filled_parsed (t : OrganizationPermission) : filled (parsed t) = t := by
  obtain ⟨id, level, children, permissions⟩ := t
  rw [parsed, filled, filledForest_parsedForest children]

theorem filledForest_parsedForest (ts : List OrganizationPermission) :
    filledForest (parsedForest ts) = ts := by
  match ts with
  | [] => rfl
  | t :: ts => rw [parsedForest, filledForest, filled_parsed t, filledForest_parsedForest ts]

end

mutual

theorem parsedAs_of_readsAs (t : OrganizationPermission) {v : Value} (h : ReadsAs v t) :
    ParsedAs v (parsed t) := by
  obtain ⟨id, level, children, permissions⟩ := t
  obtain ⟨hid, hlevel, hpermissions, cs, hcs, hforest⟩ := h
  exact ⟨hid, hlevel, hpermissions, cs, hcs, parsedForestAs_of_readsAs children hforest⟩

theorem parsedForestAs_of_readsAs (ts : List OrganizationPermission) {vs : List Value}
    (h : ForestReadsAs vs ts) : ParsedForestAs vs (parsedForest ts) := by
  match vs, ts with
  | [], [] => trivial
  | v :: vs, t :: ts =>
    exact ⟨parsedAs_of_readsAs t h.1, parsedForestAs_of_readsAs ts h.2⟩
  | [], _ :: _ => exact h.elim
  | _ :: _, [] => exact h.elim

end

section
variable {answer : ParsedOrganization → Option Bool}

mutual

theorem lacksChildren_walk (t : OrganizationPermission) :
    ∀ u ∈ walk answer (parsed t), u.lacksChildren = false := by
  obtain ⟨id, level, children, permissions⟩ := t
  have hbelow := lacksChildren_walkForest children
  rw [parsed, walk]
  intro u hu
  rcases List.mem_cons.mp hu with rfl | hu
  · rfl
  · split at hu
    · cases hu
    · exact hbelow u hu

theorem lacksChildren_walkForest (ts : List OrganizationPermission) :
    ∀ u ∈ walkForest answer (parsedForest ts), u.lacksChildren = false := by
  match ts with
  | [] =>
    intro u hu
    cases hu
  | t :: ts =>
    have hhead := lacksChildren_walk t
    have htail := lacksChildren_walkForest ts
    rw [parsedForest, walkForest]
    intro u hu
    rcases List.mem_append.mp hu with hu | hu
    · exact hhead u hu
    · exact htail u hu

end

/-- Where no unit lacks its children, a search returns what the typed one does. -/
theorem someUnit_readsAs {answerValue : Value → Except Ecma.Error (Option Bool)}
    {f : OrganizationPermission → Bool}
    (hanswer : ∀ v t, ParsedAs v t → answerValue v = .ok (answer t)) (hf : Follows answer f)
    {vs : List Value} {ts : List OrganizationPermission} (h : ForestReadsAs vs ts) :
    someUnit answerValue vs = .ok (ts.any f) := by
  have hparsed := parsedForestAs_of_readsAs ts h
  have hintime : AnsweredInTime answer (walkForest answer (parsedForest ts)) := by
    intro before u after hsplit _ hlacks
    have hmem : u ∈ walkForest answer (parsedForest ts) := by simp [hsplit]
    rw [lacksChildren_walkForest ts u hmem] at hlacks
    cases hlacks
  have hfound := (someUnit_ok_iff hanswer hf hparsed).mpr hintime
  rwa [filledForest_parsedForest] at hfound

end

/-! What is decided about the parsed text. -/

/-- Every check of the user returns what the typed one decides. -/
structure DecidedAs (v : Value) (user : UserDetails) : Prop where
  tree : ∃ tree groups, v.prop "organizationPermissionTree" = .ok tree ∧
    tree.prop "customerGroups" = .ok groups ∧
    (∀ p, hasPermissionAnywhere groups (.str (permissionText p)) =
      .ok (HasPermission.hasPermissionAnywhere
        user.organizationPermissionTree.customerGroups p)) ∧
    ∀ T, hasAnyPermissionForOrganizationType groups (.str (levelText T)) =
      .ok (HasPermission.hasAnyPermissionForOrganizationType
        user.organizationPermissionTree.customerGroups T)
  hasPermission : ∀ q, hasPermission (queryText q) v =
    .ok (.bool (HasPermission.hasPermission q (some user)))
  canView : ∀ (item : Value) (office : SimpleOffice),
    item.prop "publicId" = .ok (.str office.publicId) →
      canView v item = .ok (SampleAuthorizer.canView user office)

theorem UserReadsAs.decidedAs {v : Value} {user : UserDetails} (h : UserReadsAs v user) :
    DecidedAs v user where
  tree := by
    obtain ⟨tree, groups, htree, hgroups, hforest⟩ := h.tree
    refine ⟨tree, _, htree, hgroups, fun p => ?_, fun T => ?_⟩
    · rw [hasPermissionAnywhere_eq]
      exact someUnit_readsAs (heldAt_parsedAs p) (follows_treeHasPermission p) hforest
    · rw [hasAnyPermissionForOrganizationType_eq]
      exact someUnit_readsAs (openAt_parsedAs T) (follows_treeHasAnyPermission T) hforest
  hasPermission := by
    intro q
    obtain ⟨tree, groups, htree, hgroups, hforest⟩ := h.tree
    have hparsed : UserParsedAs v groups
        (parsedForest user.organizationPermissionTree.customerGroups) :=
      ⟨⟨tree, htree, hgroups⟩, parsedForestAs_of_readsAs _ hforest⟩
    have hdecided := hasPermission_parsedAs hparsed q user.globalPermissions
    rwa [filledForest_parsedForest] at hdecided
  canView := fun item office hitem => canView_readsAs h hitem

theorem parse_stringify_readsAs {v : Value} {user : UserDetails} {text : String}
    (hv : WellFormed v) (h : UserReadsAs v user) (htext : stringify v = some text) :
    ∃ parsed, parse text = .ok parsed ∧ UserReadsAs parsed user := by
  have hne : v ≠ .undefined := by
    rintro rfl
    cases htext
  obtain ⟨text', htext', hparse⟩ := parse_stringify hv hne
  cases Option.some.inj (htext.symm.trans htext')
  exact ⟨_, hparse, h.kept hv⟩

/-- The text that is written for a user of the declared type parses to a user about
whom every check decides the same. -/
theorem decisions_transported (v : Value) (user : UserDetails) (text : String)
    (hv : WellFormed v) (h : UserReadsAs v user) (htext : stringify v = some text) :
    ∃ parsed, parse text = .ok parsed ∧ DecidedAs parsed user := by
  obtain ⟨parsed, hparse, hread⟩ := parse_stringify_readsAs hv h htext
  exact ⟨parsed, hparse, hread.decidedAs⟩

/-- A group that passes `PRO_PROPERTY` on to its one office. -/
def broker : UserDetails where
  organizationPermissionTree := ⟨[⟨"group", .customerGroup,
    [⟨"351ba7bb-c79a-49b7-927c-87398500f180", .office, [], []⟩], [⟨.inherit, .proProperty⟩]⟩]⟩
  globalPermissions := []

def brokerGroup : Value :=
  .obj [("children", .arr [.obj [("level", .str "OFFICE"), ("permissions", .arr []),
      ("id", .str "351ba7bb-c79a-49b7-927c-87398500f180"), ("children", .arr [])]]),
    ("permissions", .arr [.obj [("permission", .str "PRO_PROPERTY"),
      ("inheritanceType", .str "INHERIT")]]),
    ("level", .str "CUSTOMER_GROUP"), ("id", .str "group")]

/-- The members are in an order of their own, and the default office is not set. -/
def brokerValue : Value :=
  .obj [("accountId", .str "account"), ("defaultOfficeId", .undefined),
    ("organizationPermissionTree", .obj [("customerGroups", .arr [brokerGroup])]),
    ("globalPermissions", .arr [])]

theorem brokerValue_wellFormed : WellFormed brokerValue := by
  have hoffice : Ordered [("level", .str "OFFICE"), ("permissions", .arr []),
      ("id", .str "351ba7bb-c79a-49b7-927c-87398500f180"), ("children", .arr [])] :=
    ordered_of_names (by decide) (by decide)
  have hpermission : Ordered [("permission", .str "PRO_PROPERTY"),
      ("inheritanceType", .str "INHERIT")] := ordered_of_names (by decide) (by decide)
  have hgroup : WellFormed brokerGroup := by
    refine ⟨ordered_of_names ?_ ?_, ?_⟩
    · simp only [List.forall_mem_cons]
      decide
    · simp only [List.map_cons, List.map_nil]
      decide
    · simp [WellFormedMembers, WellFormed, WellFormedElements, hoffice, hpermission]
  have htree : Ordered [("customerGroups", .arr [brokerGroup])] := List.pairwise_singleton _ _
  refine ⟨ordered_of_names ?_ ?_, ?_⟩
  · simp only [List.forall_mem_cons]
    decide
  · simp only [List.map_cons, List.map_nil]
    decide
  · simp [WellFormedMembers, WellFormed, WellFormedElements, hgroup, htree]

def brokerText : String := (stringify brokerValue).getD ""

theorem stringify_brokerValue : stringify brokerValue = some brokerText := by
  obtain ⟨text, htext, -⟩ := parse_stringify brokerValue_wellFormed (by simp [brokerValue])
  unfold brokerText
  rw [htext]
  rfl

theorem brokerValue_readsAs : UserReadsAs brokerValue broker where
  globalPermissions := rfl
  tree := by
    have hpermission : List.Forall₂ PermissionReadsAs [.obj [("permission", .str "PRO_PROPERTY"),
        ("inheritanceType", .str "INHERIT")]] [⟨.inherit, .proProperty⟩] :=
      .cons ⟨rfl, rfl⟩ .nil
    exact ⟨_, _, rfl, rfl, ⟨rfl, rfl, ⟨_, rfl, hpermission⟩, _, rfl,
      ⟨rfl, rfl, ⟨_, rfl, .nil⟩, _, rfl, trivial⟩, trivial⟩, trivial⟩

theorem decisions_transported_broker :
    ∃ parsed, parse brokerText = .ok parsed ∧ DecidedAs parsed broker :=
  decisions_transported brokerValue broker brokerText brokerValue_wellFormed brokerValue_readsAs
    stringify_brokerValue

end Ovipro.Runtime

namespace Ovipro.Sample
open Ecma Ecma.Json ErrorHandling Middleware Dao HasPermission Authorizer

/-- A global administrator, or a path to the office from a customer group: below a
required permission at the group itself, or granted a required permission. -/
def Permitted (user : UserDetails) (publicId : String) : Prop :=
  .proAdmin ∈ user.globalPermissions ∨
    ∃ cg ∈ user.organizationPermissionTree.customerGroups,
      ∃ p ∈ SampleAuthorizer.resolveRequirements,
        ∃ path : PathTo [cg] (SampleAuthorizer.officeQuery ⟨none, publicId⟩ p),
          SampleAuthorizer.HoldsRequired cg ∨ path.Grants

section
variable {env : Environment} {event : APIGatewayEvent} {v : Value} {user : UserDetails}

/-- The lookup yields the one row of the requested id, and its office is permitted to
the user. -/
def Discloses (env : Environment) (event : APIGatewayEvent) (user : UserDetails)
    (row : Sql.Row Scalar) : Prop :=
  ∃ uuid publicId, ValidId env event uuid ∧ LookupYields env uuid [row] ∧
    row.lookup "public_id" = some (.text publicId) ∧ Permitted user publicId

theorem canView_permitted (h : Runtime.UserReadsAs v user) (publicId : String) :
    Runtime.canView v (.obj [("publicId", .str publicId)]) = .ok true ↔
      Permitted user publicId := by
  have hview : Runtime.canView v (.obj [("publicId", .str publicId)]) =
      .ok (SampleAuthorizer.canView user ⟨none, publicId⟩) := Runtime.canView_readsAs h rfl
  rw [hview, Except.ok.injEq]
  exact SampleAuthorizer.canView_iff

theorem decides_permitted (h : Runtime.UserReadsAs v user) {row : Sql.Row Scalar}
    {publicId : String} (hrow : row.lookup "public_id" = some (.text publicId)) :
    Decides v row (.ok true) ↔ Permitted user publicId := by
  have hmatches : Sql.Row.matches OfficeDAO.officeByPublicId.key (Scalar.text publicId) row =
      true := beq_iff_eq.mpr hrow
  rw [decides_iff, canView_of_matches hmatches, canView_permitted h]

theorem granted_of_discloses (huser : UserOf event v) (h : Runtime.UserReadsAs v user)
    {row : Sql.Row Scalar} (hrow : Discloses env event user row) : Granted env event v row := by
  obtain ⟨uuid, publicId, hid, hyields, hpublicId, hpermitted⟩ := hrow
  exact ⟨⟨huser, uuid, hid, hyields⟩, (decides_permitted h hpublicId).mpr hpermitted⟩

theorem discloses_of_granted (h : Runtime.UserReadsAs v user) {row : Sql.Row Scalar}
    (hgranted : Granted env event v row) : Discloses env event user row := by
  obtain ⟨⟨-, uuid, hid, hyields⟩, hdecides⟩ := hgranted
  have hfound := hyields
  obtain ⟨connection, publicId, -, -, -, hrows⟩ := hfound
  have hselected : row ∈ officesOf connection publicId := by
    rw [← hrows]
    exact List.mem_singleton_self row
  have hpublicId : row.lookup "public_id" = some (.text publicId) :=
    of_decide_eq_true (List.mem_filter.mp hselected).2
  exact ⟨uuid, publicId, hid, hyields, hpublicId, (decides_permitted h hpublicId).mp hdecides⟩

end

/-- From the user to the response: the user is written as a text, parsed, checked
against the one row that is found, and the response passes the middlewares. The
office of the row comes out if it is permitted, and one error in all other cases. -/
theorem handler_decides (env : Environment) (parseBody : APIGatewayEvent → Except Thrown Value)
    (event : APIGatewayEvent) (headers : Headers) (body : Value) (h : event.headers = some headers)
    (hbody : parseBody (normalizeEvent event) = .ok body) (v : Value) (user : UserDetails)
    (text : String) (hv : WellFormed v) (huser : Runtime.UserReadsAs v user)
    (htext : stringify v = some text) (hdata : AuthorizerData event text) :
    (∀ row, Discloses env event user row →
      ∃ response, handler env parseBody event = .ok (some response) ∧ OfficeAnswer row response) ∧
    ((∀ row, ¬ Discloses env event user row) →
      ∃ response, handler env parseBody event = .ok (some response) ∧
        TechnicalError response) := by
  obtain ⟨parsed, hparse, hread⟩ := Runtime.parse_stringify_readsAs hv huser htext
  have hparsed := userOf_of_shape hdata hparse hread.shape
  have hhanded := handedEvent_of_body hbody
  rw [handler_eq env parseBody h]
  refine ⟨fun row hrow => ?_, fun hnone => ?_⟩
  · rw [answer_of_granted hhanded (granted_of_discloses hparsed hread hrow)]
    exact ⟨_, rfl, officeAnswer_carries row⟩
  · have hrefused : ∀ other row, ¬ Granted env event other row := by
      intro other row hgranted
      have hsame := userOf_unique hparsed hgranted.1.user
      subst hsame
      exact hnone row (discloses_of_granted hread hgranted)
    rw [answer_of_not_granted hhanded hrefused]
    exact ⟨_, rfl, technicalError_reads⟩

theorem broker_permitted : Permitted Runtime.broker "351ba7bb-c79a-49b7-927c-87398500f180" :=
  SampleAuthorizer.canView_iff.mp (by decide +kernel)

theorem handler_decides_broker :
    ∃ response, handler oneOfficeEnvironment (fun event => .ok event.body)
        { strangerEvent with requestContext := ⟨some ⟨some Runtime.brokerText⟩⟩ } =
      .ok (some response) ∧ OfficeAnswer oneOfficeRow response :=
  (handler_decides oneOfficeEnvironment (fun event => .ok event.body)
    { strangerEvent with requestContext := ⟨some ⟨some Runtime.brokerText⟩⟩ } _ _ rfl rfl
    Runtime.brokerValue Runtime.broker Runtime.brokerText Runtime.brokerValue_wellFormed
    Runtime.brokerValue_readsAs Runtime.stringify_brokerValue rfl).1 oneOfficeRow
    ⟨_, "351ba7bb-c79a-49b7-927c-87398500f180", ⟨rfl, by decide⟩,
      ⟨_, "351ba7bb-c79a-49b7-927c-87398500f180", rfl, rfl, rfl, rfl⟩, rfl, broker_permitted⟩

end Ovipro.Sample
