import OviproApi.HasPermission.Check

/-! `hasPermission` in terms of the paths of the forest: the unit that decides
is the first occurrence of the queried organization on a path from a customer
group downwards. -/

namespace Ovipro.HasPermission
open Descent

/-- Units from a root of the forest downwards, each a child of the one before. -/
def IsDownwardPath (forest path : List OrganizationPermission) : Prop :=
  (∃ root ∈ forest, path.head? = some root) ∧ path.IsChain fun n c => c ∈ n.children

/-- A downward path that ends at its first occurrence of the queried organization. -/
structure PathTo (forest : List OrganizationPermission) (q : PermissionToCheck) where
  above : List OrganizationPermission
  unit : OrganizationPermission
  downward : IsDownwardPath forest (above ++ [unit])
  first : ∀ n ∈ above, ¬ (n.level = q.level ∧ n.id = q.organizationId)
  found : unit.level = q.level ∧ unit.id = q.organizationId

/-- The unit holds the permission, or a unit above it passes it on. -/
def PathTo.Grants {forest : List OrganizationPermission} {q : PermissionToCheck}
    (path : PathTo forest q) : Prop :=
  (∃ g ∈ path.unit.permissions, g.permission = q.permission) ∨
    ∃ n ∈ path.above, ∃ g ∈ n.permissions,
      g.permission = q.permission ∧ g.inheritanceType = .inherit

def Occurs (forest : List OrganizationPermission) (level : OrganizationType) (id : String) : Prop :=
  ∃ above unit, IsDownwardPath forest (above ++ [unit]) ∧ unit.level = level ∧ unit.id = id

theorem isOrganization_iff {t : OrganizationPermission} {q : PermissionToCheck} :
    t.isOrganization q = true ↔ t.level = q.level ∧ t.id = q.organizationId := by
  simp [OrganizationPermission.isOrganization]

theorem isOrganization_eq_false_iff {t : OrganizationPermission} {q : PermissionToCheck} :
    t.isOrganization q = false ↔ ¬ (t.level = q.level ∧ t.id = q.organizationId) := by
  rw [← isOrganization_iff, Bool.not_eq_true]

theorem checkPermission_iff {permissions : List Permission} {p : PermissionType} :
    checkPermission permissions p = true ↔ ∃ g ∈ permissions, g.permission = p := by
  simp [checkPermission]

theorem checkInheritedPermission_iff {permissions : List Permission} {p : PermissionType} :
    checkInheritedPermission permissions p = true ↔
      ∃ g ∈ permissions, g.permission = p ∧ g.inheritanceType = .inherit := by
  simp [checkInheritedPermission]

theorem isDownwardPath_iff_walk {stop : OrganizationPermission → Bool}
    {forest above : List OrganizationPermission} {unit : OrganizationPermission} :
    (IsDownwardPath forest (above ++ [unit]) ∧ ∀ n ∈ above, stop n = false) ↔
      ∃ root ∈ forest, Walk (·.children) stop root above unit := by
  simp only [IsDownwardPath, walk_iff_isChain]
  constructor
  · intro hroute
    rcases hroute with ⟨⟨⟨root, hroot, hhead⟩, hchain⟩, hpass⟩
    exact ⟨root, hroot, hchain, hhead, hpass⟩
  · intro hwalks
    rcases hwalks with ⟨root, hroot, hchain, hhead, hpass⟩
    exact ⟨⟨⟨root, hroot, hhead⟩, hchain⟩, hpass⟩

/-- A search of the children ends at a unit that it comes to and that grants. -/
theorem any_run_iff {search : Search OrganizationPermission} {flag : Bool}
    {forest : List OrganizationPermission} (hchildren : search.children = fun t => t.children) :
    forest.any (search.run flag) = true ↔
      ∃ above unit, IsDownwardPath forest (above ++ [unit]) ∧
        (∀ n ∈ above, search.stop n = false) ∧ search.grants flag above unit = true := by
  simp only [List.any_eq_true, Search.run_iff_walk, hchildren]
  constructor
  · intro hsearch
    rcases hsearch with ⟨root, hroot, above, unit, hwalk, hgrants⟩
    obtain ⟨hpath, hpass⟩ := isDownwardPath_iff_walk.mpr ⟨root, hroot, hwalk⟩
    exact ⟨above, unit, hpath, hpass, hgrants⟩
  · intro hpaths
    rcases hpaths with ⟨above, unit, hpath, hpass, hgrants⟩
    obtain ⟨root, hroot, hwalk⟩ := isDownwardPath_iff_walk.mp ⟨hpath, hpass⟩
    exact ⟨root, hroot, above, unit, hwalk, hgrants⟩

theorem permissionSearch_grants_iff {q : PermissionToCheck} {flag : Bool}
    {above : List OrganizationPermission} {unit : OrganizationPermission} :
    (permissionSearch q).grants flag above unit = true ↔
      unit.isOrganization q = true ∧ (flag = true ∨
        (∃ g ∈ unit.permissions, g.permission = q.permission) ∨
        ∃ n ∈ above, ∃ g ∈ n.permissions,
          g.permission = q.permission ∧ g.inheritanceType = .inherit) := by
  cases hunit : unit.isOrganization q with
  | true =>
    simp only [Search.grants, permissionSearch, hunit, if_true, Bool.or_eq_true, List.any_eq_true,
      checkPermission_iff, checkInheritedPermission_iff, true_and]
    rw [or_right_comm, or_assoc]
  | false => simp [Search.grants, permissionSearch, hunit]

theorem any_checkForPermission_iff {q : PermissionToCheck} {flag : Bool}
    {forest : List OrganizationPermission} :
    (forest.any fun t => checkForPermission q t flag) = true ↔
      ∃ path : PathTo forest q, flag = true ∨ path.Grants := by
  have hrun : (fun t => checkForPermission q t flag) = (permissionSearch q).run flag := rfl
  rw [hrun, any_run_iff rfl]
  simp only [permissionSearch_grants_iff]
  constructor
  · intro hpaths
    rcases hpaths with ⟨above, unit, hpath, hpass, hunit, hgrant⟩
    exact ⟨⟨above, unit, hpath, fun n hn => isOrganization_eq_false_iff.mp (hpass n hn),
      isOrganization_iff.mp hunit⟩, hgrant⟩
  · intro hpaths
    rcases hpaths with ⟨⟨above, unit, hpath, hfirst, hunit⟩, hgrant⟩
    exact ⟨above, unit, hpath, fun n hn => isOrganization_eq_false_iff.mpr (hfirst n hn),
      isOrganization_iff.mpr hunit, hgrant⟩

theorem checkForPermission_iff {q : PermissionToCheck} {flag : Bool} {t : OrganizationPermission} :
    checkForPermission q t flag = true ↔ ∃ path : PathTo [t] q, flag = true ∨ path.Grants := by
  rw [← any_checkForPermission_iff, List.any_cons, List.any_nil, Bool.or_false]

theorem exists_grants_iff {q : PermissionToCheck} {forest : List OrganizationPermission} :
    (∃ path : PathTo forest q, path.Grants) ↔
      ∃ t ∈ forest, ∃ path : PathTo [t] q, path.Grants := by
  have hforest := @any_checkForPermission_iff q false forest
  simp only [List.any_eq_true, checkForPermission_iff, Bool.false_eq_true, false_or] at hforest
  exact hforest.symm

theorem isDownwardPath_cons {forest path : List OrganizationPermission} {t : OrganizationPermission} :
    IsDownwardPath forest (t :: path) ↔
      t ∈ forest ∧ (path = [] ∨ IsDownwardPath t.children path) := by
  cases path with
  | nil => simp [IsDownwardPath]
  | cons c path => simp [IsDownwardPath, List.isChain_cons_cons]

theorem isDownwardPath_append {forest path rest : List OrganizationPermission}
    {n : OrganizationPermission} :
    IsDownwardPath forest (path ++ n :: rest) ↔
      IsDownwardPath forest (path ++ [n]) ∧ (rest = [] ∨ IsDownwardPath n.children rest) := by
  induction path generalizing forest with
  | nil =>
    rw [List.nil_append, List.nil_append, isDownwardPath_cons, isDownwardPath_cons]
    simp
  | cons a path ih =>
    have hne : path ++ n :: rest ≠ [] := by simp
    have hne' : path ++ [n] ≠ [] := by simp
    rw [List.cons_append, List.cons_append, isDownwardPath_cons, isDownwardPath_cons, ih,
      or_iff_right hne, or_iff_right hne', and_assoc]

/-- Where the organization occurs at all, some path reaches a first occurrence. -/
theorem occurs_iff_nonempty_pathTo {q : PermissionToCheck} {forest : List OrganizationPermission} :
    Occurs forest q.level q.organizationId ↔ Nonempty (PathTo forest q) := by
  constructor
  · intro hoccurs
    rcases hoccurs with ⟨above, unit, hpath, hunit⟩
    induction above generalizing forest with
    | nil => exact ⟨[], unit, hpath, by simp, hunit⟩
    | cons a above ih =>
      rw [List.cons_append, isDownwardPath_cons] at hpath
      obtain ⟨ha, hbelow⟩ := hpath
      by_cases hfound : a.level = q.level ∧ a.id = q.organizationId
      · exact ⟨[], a, isDownwardPath_cons.mpr ⟨ha, Or.inl rfl⟩, by simp, hfound⟩
      · obtain ⟨path⟩ := ih (hbelow.resolve_left (by simp))
        refine ⟨a :: path.above, path.unit, ?_, ?_, path.found⟩
        · exact isDownwardPath_cons.mpr ⟨ha, Or.inr path.downward⟩
        · intro n hn
          rcases List.mem_cons.mp hn with rfl | hn
          · exact hfound
          · exact path.first n hn
  · intro hreached
    rcases hreached with ⟨path⟩
    exact ⟨path.above, path.unit, path.downward, path.found⟩

/-- Whether an organization occurs is what the check answers with the flag set. -/
theorem occurs_iff_checkForPermission {q : PermissionToCheck}
    {forest : List OrganizationPermission} :
    Occurs forest q.level q.organizationId ↔
      (forest.any fun t => checkForPermission q t true) = true := by
  rw [occurs_iff_nonempty_pathTo, any_checkForPermission_iff]
  constructor
  · intro hreached
    rcases hreached with ⟨path⟩
    exact ⟨path, Or.inl rfl⟩
  · intro hreached
    rcases hreached with ⟨path, -⟩
    exact ⟨path⟩

instance (forest : List OrganizationPermission) (level : OrganizationType) (id : String) :
    Decidable (Occurs forest level id) :=
  decidable_of_iff _ (occurs_iff_checkForPermission (q := ⟨level, id, .proAdmin⟩)).symm

theorem hasPermission_some {q : PermissionToCheck} {user : UserDetails} :
    hasPermission q (some user) = true ↔
      ∃ path : PathTo user.organizationPermissionTree.customerGroups q, path.Grants := by
  simp only [hasPermission, any_checkForPermission_iff, Bool.false_eq_true, false_or]

/-! The part of a forest that a query depends on. -/

mutual

/-- Below an occurrence nothing is kept, above it only what passes on, and a
tree without an occurrence is dropped. -/
def relevantTree (q : PermissionToCheck) : OrganizationPermission → Option OrganizationPermission
  | ⟨id, level, children, permissions⟩ =>
    if level == q.level && id == q.organizationId then some ⟨id, level, [], permissions⟩
    else
      match relevantForest q children with
      | [] => none
      | kept => some ⟨id, level, kept, permissions.filter (·.inheritanceType == .inherit)⟩

def relevantForest (q : PermissionToCheck) :
    List OrganizationPermission → List OrganizationPermission
  | [] => []
  | t :: ts =>
    match relevantTree q t with
    | none => relevantForest q ts
    | some kept => kept :: relevantForest q ts

end

theorem relevantTree_eq (q : PermissionToCheck) (t : OrganizationPermission) :
    relevantTree q t =
      if t.isOrganization q then some { t with children := [] }
      else
        match relevantForest q t.children with
        | [] => none
        | kept => some { t with
            children := kept, permissions := t.permissions.filter (·.inheritanceType == .inherit) } := by
  cases t
  rw [relevantTree]
  rfl

theorem relevantForest_eq (q : PermissionToCheck) (forest : List OrganizationPermission) :
    relevantForest q forest = forest.filterMap (relevantTree q) := by
  induction forest with
  | nil => rfl
  | cons t ts ih =>
    rw [relevantForest, List.filterMap_cons, ih]
    cases relevantTree q t <;> rfl

theorem checkInheritedPermission_filter (permissions : List Permission) (p : PermissionType) :
    checkInheritedPermission (permissions.filter (·.inheritanceType == .inherit)) p =
      checkInheritedPermission permissions p := by
  rw [Bool.eq_iff_iff, checkInheritedPermission_iff, checkInheritedPermission_iff]
  simp only [List.mem_filter, beq_iff_eq]
  constructor
  · intro hkept
    rcases hkept with ⟨g, ⟨hg, -⟩, hp, hi⟩
    exact ⟨g, hg, hp, hi⟩
  · intro hheld
    rcases hheld with ⟨g, hg, hp, hi⟩
    exact ⟨g, ⟨hg, hi⟩, hp, hi⟩

theorem any_relevantForest {q : PermissionToCheck} {f : OrganizationPermission → Bool}
    {ts : List OrganizationPermission} (h : ∀ t ∈ ts, (relevantTree q t).any f = f t) :
    (relevantForest q ts).any f = ts.any f := by
  induction ts with
  | nil => rfl
  | cons t ts ih =>
    have ht := h t (List.mem_cons_self ..)
    have hts := ih fun c hc => h c (List.mem_cons_of_mem _ hc)
    rw [relevantForest_eq] at hts ⊢
    rw [List.filterMap_cons, List.any_cons, ← ht, ← hts]
    cases relevantTree q t <;> rfl

theorem relevantTree_any (q : PermissionToCheck) (t : OrganizationPermission) (flag : Bool) :
    (relevantTree q t).any (fun t => checkForPermission q t flag) = checkForPermission q t flag := by
  induction t using OrganizationPermission.child_wellFounded.induction generalizing flag with
  | _ t ih =>
    have hchildren : ∀ flag, ((relevantForest q t.children).any fun c => checkForPermission q c flag) =
        t.children.any fun c => checkForPermission q c flag :=
      fun flag => any_relevantForest fun c hc => ih c hc flag
    rw [relevantTree_eq]
    cases hunit : t.isOrganization q with
    | true =>
      have hkept : checkForPermission q { t with children := [] } flag =
          (flag || checkPermission t.permissions q.permission) :=
        checkForPermission_of_found (t := { t with children := [] }) hunit flag
      rw [if_pos rfl, Option.any_some, hkept, checkForPermission_of_found hunit]
    | false =>
      rw [if_neg Bool.false_ne_true, checkForPermission_of_passed hunit, ← hchildren]
      split
      · rename_i hnone
        rw [hnone]
        rfl
      · have hkept : checkForPermission q { t with
              children := relevantForest q t.children
              permissions := t.permissions.filter (·.inheritanceType == .inherit) } flag = _ :=
          checkForPermission_of_passed (t := { t with
            children := relevantForest q t.children
            permissions := t.permissions.filter (·.inheritanceType == .inherit) }) hunit flag
        rw [Option.any_some, hkept, checkInheritedPermission_filter]

def UserDetails.relevant (q : PermissionToCheck) (user : UserDetails) : UserDetails :=
  { user with organizationPermissionTree :=
      ⟨relevantForest q user.organizationPermissionTree.customerGroups⟩ }

theorem hasPermission_relevant (q : PermissionToCheck) (user : UserDetails) :
    hasPermission q (some (user.relevant q)) = hasPermission q (some user) :=
  any_relevantForest fun t _ => relevantTree_any q t false

/-- `hasPermission` holds exactly along the granting paths of a present user,
and everything off these paths can be removed without changing it. -/
theorem hasPermission_iff_path (q : PermissionToCheck) (user : Option UserDetails) :
    (hasPermission q user = true ↔ ∃ u, user = some u ∧
      ∃ path : PathTo u.organizationPermissionTree.customerGroups q, path.Grants) ∧
    hasPermission q (user.map (·.relevant q)) = hasPermission q user := by
  cases user with
  | none => simp [hasPermission]
  | some u => exact ⟨by simp only [hasPermission_some, Option.some.injEq, exists_eq_left'],
      hasPermission_relevant q u⟩

end Ovipro.HasPermission
