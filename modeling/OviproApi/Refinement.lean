import OviproApi.Runtime

/-! On a parsed user that has the declared types, the untyped authorizer
returns what the typed one computes. Members that no check reads may be
present in any number and order. -/

namespace Ovipro.Runtime
open Ecma HasPermission Authorizer

def levelText : OrganizationType → String
  | .customerGroup => "CUSTOMER_GROUP"
  | .customer => "CUSTOMER"
  | .office => "OFFICE"

def inheritanceText : InheritanceType → String
  | .inherit => "INHERIT"
  | .none => "NONE"

def permissionText : PermissionType → String
  | .proSelfViewer => "PRO_SELF_VIEWER"
  | .proViewer => "PRO_VIEWER"
  | .proProperty => "PRO_PROPERTY"
  | .proShowingEdit => "PRO_SHOWING_EDIT"
  | .proExtraVisibilityPurchases => "PRO_EXTRA_VISIBILITY_PURCHASES"
  | .proUsermanagement => "PRO_USERMANAGEMENT"
  | .proCompanyinfomanagement => "PRO_COMPANYINFOMANAGEMENT"
  | .proCcInvoicing => "PRO_CC_INVOICING"
  | .proMarketplaces => "PRO_MARKETPLACES"
  | .proPurchase => "PRO_PURCHASE"
  | .proReports => "PRO_REPORTS"
  | .proCustomers => "PRO_CUSTOMERS"
  | .proAssignments => "PRO_ASSIGNMENTS"
  | .proNewspaperads => "PRO_NEWSPAPERADS"
  | .proInvoicingView => "PRO_INVOICING_VIEW"
  | .proInvoicingEdit => "PRO_INVOICING_EDIT"
  | .proPropertyPresentations => "PRO_PROPERTY_PRESENTATIONS"
  | .proMultimediaEdit => "PRO_MULTIMEDIA_EDIT"
  | .proAdmin => "PRO_ADMIN"

/-- The permission that a text names, if any. -/
def permissionOf (text : String) : Option PermissionType :=
  [.proSelfViewer, .proViewer, .proProperty, .proShowingEdit, .proExtraVisibilityPurchases,
    .proUsermanagement, .proCompanyinfomanagement, .proCcInvoicing, .proMarketplaces, .proPurchase,
    .proReports, .proCustomers, .proAssignments, .proNewspaperads, .proInvoicingView,
    .proInvoicingEdit, .proPropertyPresentations, .proMultimediaEdit, .proAdmin].find?
    fun permission => permissionText permission == text

theorem permissionOf_permissionText (p : PermissionType) : permissionOf (permissionText p) = some p := by
  cases p <;> decide

theorem levelText_beq (a b : OrganizationType) : (levelText a == levelText b) = (a == b) := by
  cases a <;> cases b <;> decide

theorem inheritanceText_beq (a : InheritanceType) :
    (inheritanceText a == "INHERIT") = (a == .inherit) := by
  cases a <;> decide

theorem permissionText_beq (a b : PermissionType) :
    (permissionText a == permissionText b) = (a == b) := by
  have hinjective : permissionText a = permissionText b → a = b := by
    intro h
    have hsome := congrArg permissionOf h
    rwa [permissionOf_permissionText, permissionOf_permissionText, Option.some.injEq] at hsome
  rw [Bool.eq_iff_iff, beq_iff_eq, beq_iff_eq]
  exact ⟨hinjective, congrArg permissionText⟩

structure PermissionReadsAs (v : Value) (g : Permission) : Prop where
  permission : v.prop "permission" = .ok (.str (permissionText g.permission))
  inheritanceType : v.prop "inheritanceType" = .ok (.str (inheritanceText g.inheritanceType))

mutual

def ReadsAs (v : Value) : OrganizationPermission → Prop
  | ⟨id, level, children, permissions⟩ =>
    v.prop "id" = .ok (.str id) ∧ v.prop "level" = .ok (.str (levelText level)) ∧
      (∃ ps, v.prop "permissions" = .ok (.arr ps) ∧ ps.Forall₂ PermissionReadsAs permissions) ∧
      ∃ cs, v.prop "children" = .ok (.arr cs) ∧ ForestReadsAs cs children

def ForestReadsAs : List Value → List OrganizationPermission → Prop
  | [], [] => True
  | v :: vs, t :: ts => ReadsAs v t ∧ ForestReadsAs vs ts
  | _, _ => False

end

structure UserReadsAs (v : Value) (user : UserDetails) : Prop where
  globalPermissions : v.prop "globalPermissions" =
    .ok (.arr (user.globalPermissions.map fun p => .str (permissionText p)))
  tree : ∃ tree groups, v.prop "organizationPermissionTree" = .ok tree ∧
    tree.prop "customerGroups" = .ok (.arr groups) ∧
    ForestReadsAs groups user.organizationPermissionTree.customerGroups

def queryText (q : HasPermission.PermissionToCheck) : PermissionToCheck where
  level := .str (levelText q.level)
  organizationId := .str q.organizationId
  permission := .str (permissionText q.permission)

theorem forestReadsAs_iff {vs : List Value} {ts : List OrganizationPermission} :
    ForestReadsAs vs ts ↔ List.Forall₂ ReadsAs vs ts := by
  induction vs generalizing ts with
  | nil => cases ts <;> simp [ForestReadsAs]
  | cons v vs ih => cases ts <;> simp [ForestReadsAs, ih]

theorem checkPermission_readsAs {ps : List Value} {permissions : List Permission}
    (h : ps.Forall₂ PermissionReadsAs permissions) (p : PermissionType) :
    checkPermission (.arr ps) (.str (permissionText p)) =
      .ok (HasPermission.checkPermission permissions p) := by
  refine anyM_eq_any (h.imp fun v g hread => ?_)
  rw [hread.permission, ← permissionText_beq]
  rfl

theorem checkInheritedPermission_readsAs {ps : List Value} {permissions : List Permission}
    (h : ps.Forall₂ PermissionReadsAs permissions) (p : PermissionType) :
    checkInheritedPermission (.arr ps) (.str (permissionText p)) =
      .ok (HasPermission.checkInheritedPermission permissions p) := by
  refine anyM_eq_any (h.imp fun v g hread => ?_)
  rw [hread.permission, hread.inheritanceType, ← permissionText_beq, ← inheritanceText_beq]
  show (if permissionText g.permission == permissionText p then _ else _) = _
  cases permissionText g.permission == permissionText p <;> rfl

theorem findChild_readsAs {q : PermissionToCheck} {v : Value} {flag inherited : Bool}
    {cs : List Value} {children : List OrganizationPermission} {f : OrganizationPermission → Bool}
    (hflag : inheritedFlag q v flag = .ok inherited)
    (h : cs.Forall₂ (fun c t => c.IsObject ∧ checkForPermission q c inherited = .ok (f t)) children) :
    ∃ found, findChild q v flag cs = .ok found ∧ found.truthy = children.any f := by
  induction h with
  | nil => exact ⟨.undefined, by rw [findChild]; rfl, rfl⟩
  | @cons c t cs children hct _ ih =>
    obtain ⟨hobject, hcheck⟩ := hct
    obtain ⟨found, hfound, htruthy⟩ := ih
    rw [findChild, hflag]
    simp only [bind, Except.bind, hcheck, List.any_cons]
    cases f t with
    | true => exact ⟨c, rfl, hobject.truthy⟩
    | false => exact ⟨found, hfound, htruthy⟩

/-! One unit: what is read of it apart from its children, and one step of the search. -/

structure HeadReadsAs (v : Value) (t : OrganizationPermission) (ps : List Value) : Prop where
  id : v.prop "id" = .ok (.str t.id)
  level : v.prop "level" = .ok (.str (levelText t.level))
  permissions : v.prop "permissions" = .ok (.arr ps)
  entries : ps.Forall₂ PermissionReadsAs t.permissions

theorem ReadsAs.head {v : Value} {t : OrganizationPermission} (h : ReadsAs v t) :
    ∃ ps, HeadReadsAs v t ps := by
  obtain ⟨id, level, children, permissions⟩ := t
  obtain ⟨hid, hlevel, ⟨ps, hps, hentries⟩, -⟩ := h
  exact ⟨ps, hid, hlevel, hps, hentries⟩

theorem ReadsAs.children {v : Value} {t : OrganizationPermission} (h : ReadsAs v t) :
    ∃ cs, v.prop "children" = .ok (.arr cs) ∧ cs.Forall₂ ReadsAs t.children := by
  obtain ⟨id, level, children, permissions⟩ := t
  obtain ⟨-, -, -, cs, hcs, hforest⟩ := h
  exact ⟨cs, hcs, forestReadsAs_iff.mp hforest⟩

section
variable {v : Value} {t : OrganizationPermission} {ps : List Value}

theorem HeadReadsAs.isObject (h : HeadReadsAs v t ps) : v.IsObject :=
  Value.isObject_of_prop_ne h.id (by simp)

theorem orgInCurrentLevel_readsAs (h : HeadReadsAs v t ps) (q : HasPermission.PermissionToCheck) :
    orgInCurrentLevel (queryText q) v = .ok (t.isOrganization q) := by
  unfold orgInCurrentLevel
  rw [h.id, h.level]
  show (if levelText t.level == levelText q.level then _ else _) =
    Except.ok (t.level == q.level && t.id == q.organizationId)
  rw [← levelText_beq]
  cases levelText t.level == levelText q.level <;> rfl

theorem inheritedFlag_readsAs (h : HeadReadsAs v t ps) (q : HasPermission.PermissionToCheck)
    (flag : Bool) :
    inheritedFlag (queryText q) v flag =
      .ok (flag || HasPermission.checkInheritedPermission t.permissions q.permission) := by
  have hinherited := checkInheritedPermission_readsAs h.entries q.permission
  unfold inheritedFlag
  rw [h.permissions]
  cases flag with
  | true => rfl
  | false => exact hinherited

/-- The untyped check of a unit is the typed one if it is so below the unit;
a missing array of children reads like an empty one. -/
theorem checkForPermission_of_children {q : HasPermission.PermissionToCheck} {flag : Bool}
    (h : HeadReadsAs v t ps)
    (hbelow : (v.prop "children" = .ok .undefined ∧ t.children = []) ∨
      ∃ cs, v.prop "children" = .ok (.arr cs) ∧ ∀ inherited, cs.Forall₂ (fun c u =>
        c.IsObject ∧ checkForPermission (queryText q) c inherited =
          .ok (HasPermission.checkForPermission q u inherited)) t.children) :
    checkForPermission (queryText q) v flag = .ok (HasPermission.checkForPermission q t flag) := by
  rw [checkForPermission_eq, orgInCurrentLevel_readsAs h q, h.permissions]
  cases hunit : t.isOrganization q with
  | true =>
    rw [checkForPermission_of_found hunit]
    cases flag with
    | true => rfl
    | false => exact checkPermission_readsAs h.entries q.permission
  | false =>
    rw [checkForPermission_of_passed hunit]
    rcases hbelow with ⟨hnone, hempty⟩ | ⟨cs, hcs, hchildren⟩
    · rw [hnone, hempty]
      rfl
    · have hflag := inheritedFlag_readsAs h q flag
      obtain ⟨found, hfound, htruthy⟩ := findChild_readsAs hflag (hchildren _)
      rw [hcs]
      show (findChild (queryText q) v flag cs >>= fun found => pure found.truthy) = _
      rw [hfound]
      exact congrArg Except.ok htruthy

end

theorem checkForPermission_readsAs {v : Value} {t : OrganizationPermission} (h : ReadsAs v t)
    (q : HasPermission.PermissionToCheck) (flag : Bool) :
    checkForPermission (queryText q) v flag = .ok (HasPermission.checkForPermission q t flag) := by
  -- on the units below, whatever flag they inherit
  induction t using OrganizationPermission.child_wellFounded.induction generalizing v flag with
  | _ t ih =>
    obtain ⟨ps, hhead⟩ := h.head
    obtain ⟨cs, hcs, hforest⟩ := h.children
    apply checkForPermission_of_children hhead
    refine Or.inr ⟨cs, hcs, fun inherited => ?_⟩
    apply forall₂_of_mem hforest
    intro c u hu hread
    obtain ⟨qs, hchild⟩ := hread.head
    exact ⟨hchild.isObject, ih u hu hread inherited⟩

theorem ReadsAs.shape {v : Value} {t : OrganizationPermission} (h : ReadsAs v t) : UnitShape v := by
  induction t using OrganizationPermission.child_wellFounded.induction generalizing v with
  | _ t ih =>
    obtain ⟨ps, hhead⟩ := h.head
    obtain ⟨cs, hcs, hforest⟩ := h.children
    have hobjects : ∀ p ∈ ps, p.IsObject := by
      intro p hp
      obtain ⟨g, -, hread⟩ := exists_right_of_mem hhead.entries hp
      exact Value.isObject_of_prop_ne hread.permission (by simp)
    have hshapes : ∀ c ∈ cs, UnitShape c := by
      intro c hc
      obtain ⟨u, hu, hread⟩ := exists_right_of_mem hforest hc
      exact ih u hu hread
    exact .node hhead.permissions hobjects hcs hshapes

theorem UserReadsAs.shape {v : Value} {user : UserDetails} (h : UserReadsAs v user) :
    UserShape v := by
  obtain ⟨tree, groups, htree, hgroups, hforest⟩ := h.tree
  rw [forestReadsAs_iff] at hforest
  refine ⟨⟨_, h.globalPermissions⟩, tree, groups, htree, hgroups, fun group hgroup => ?_⟩
  obtain ⟨t, -, hread⟩ := exists_right_of_mem hforest hgroup
  exact hread.shape

theorem isGlobalAdmin_readsAs {v : Value} {user : UserDetails} (h : UserReadsAs v user) :
    isGlobalAdmin v = .ok (user.globalPermissions.any fun permission => permission == .proAdmin) := by
  unfold isGlobalAdmin
  rw [h.globalPermissions]
  refine anyM_eq_any (List.forall₂_map_left_iff.mpr (List.forall₂_same.mpr fun p _ => ?_))
  rw [← permissionText_beq]
  rfl

theorem includes_readsAs (required : List PermissionType) (p : PermissionType) :
    includes (required.map fun p => .str (permissionText p)) (.str (permissionText p)) =
      required.contains p := by
  induction required with
  | nil => rfl
  | cons r rs ih =>
    have hhead : (Value.str (permissionText r)).strictEq (.str (permissionText p)) = (p == r) := by
      rw [← permissionText_beq]
      exact BEq.comm
    unfold includes at ih ⊢
    rw [List.map_cons, List.any_cons, ih, List.contains_cons, hhead]

theorem holdsAny_readsAs {v : Value} {cg : OrganizationPermission} {ps : List Value}
    (h : HeadReadsAs v cg ps) (required : List PermissionType) :
    holdsAny (required.map fun p => .str (permissionText p)) v =
      .ok (cg.permissions.any fun g => required.contains g.permission) := by
  unfold holdsAny
  rw [h.permissions]
  apply anyM_eq_any
  apply h.entries.imp
  intro v g hread
  rw [hread.permission, ← includes_readsAs]
  rfl

/-- The authorizer on a parsed user and a row is the typed one. -/
theorem canView_readsAs {v item : Value} {user : UserDetails} {office : SimpleOffice}
    (h : UserReadsAs v user) (hitem : item.prop "publicId" = .ok (.str office.publicId)) :
    canView v item = .ok (SampleAuthorizer.canView user office) := by
  obtain ⟨tree, groups, htree, hgroups, hforest⟩ := h.tree
  rw [forestReadsAs_iff] at hforest
  have hgrants : ∀ cg group, ReadsAs cg group → ∀ p,
      groupGrants item resolveRequirements cg (.str (permissionText p)) =
        .ok (HasPermission.checkForPermission (SampleAuthorizer.officeQuery office p) group
          (group.permissions.any fun g =>
            SampleAuthorizer.resolveRequirements.contains g.permission)) := by
    intro cg group hread p
    obtain ⟨ps, hhead⟩ := hread.head
    have hseed := holdsAny_readsAs hhead SampleAuthorizer.resolveRequirements
    have hcheck := checkForPermission_readsAs hread (SampleAuthorizer.officeQuery office p)
    unfold groupGrants
    rw [hitem]
    show (holdsAny resolveRequirements cg >>= _) = _
    exact (congrArg (· >>= _) hseed).trans (hcheck _)
  have hany : (groups.anyM fun cg =>
      resolveRequirements.anyM (groupGrants item resolveRequirements cg)) =
      .ok (user.organizationPermissionTree.customerGroups.any fun group =>
        SampleAuthorizer.resolveRequirements.any fun p =>
          HasPermission.checkForPermission (SampleAuthorizer.officeQuery office p) group
            (group.permissions.any fun g =>
              SampleAuthorizer.resolveRequirements.contains g.permission)) := by
    refine anyM_eq_any (hforest.imp fun cg group hread => anyM_eq_any ?_)
    have hproperty := hgrants cg group hread .proProperty
    have hadmin := hgrants cg group hread .proAdmin
    exact .cons hproperty (.cons hadmin .nil)
  unfold canView hasRequirements
  rw [isGlobalAdmin_readsAs h, htree]
  simp only [bind, Except.bind, hgroups]
  unfold SampleAuthorizer.canView SampleAuthorizer.canViewRelation SampleAuthorizer.findRelation
    SampleAuthorizer.hasRequirements
  cases user.globalPermissions.any fun permission => permission == .proAdmin with
  | true => rfl
  | false => exact hany

end Ovipro.Runtime
