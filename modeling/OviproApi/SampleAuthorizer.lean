import OviproApi.ErrorHandling
import OviproApi.HasPermission.Paths

/-! The authorizer of offices, compared with `hasPermission`. -/

namespace Ovipro.Authorizer
open HasPermission ErrorHandling

/-- The `id` of an office that has not been inserted is unset. -/
structure SimpleOffice where
  id : Option Int
  publicId : String
  deriving DecidableEq, Repr

inductive RelationType
  | owner
  | other
  | none
  deriving DecidableEq, Repr

structure Relation (Item : Type) where
  user : UserDetails
  item : Item
  relationType : RelationType

namespace SampleAuthorizer

def findRelation (user : UserDetails) (item : SimpleOffice) : Relation SimpleOffice :=
  ⟨user, item, .other⟩

def resolveRequirements : List PermissionType := [.proProperty, .proAdmin]

def hasRequirements (relation : Relation SimpleOffice)
    (anyRequiredPermission : List PermissionType) : Bool :=
  ((relation.user.globalPermissions.any fun permission => permission == .proAdmin) &&
      anyRequiredPermission.contains .proAdmin) ||
    relation.user.organizationPermissionTree.customerGroups.any fun customerGroup =>
      anyRequiredPermission.any fun permission =>
        checkForPermission
          { level := .office, organizationId := relation.item.publicId, permission := permission }
          customerGroup
          -- the seed counts as inherited, whatever the inheritance types at the group are
          (customerGroup.permissions.any fun permissionLocal =>
            anyRequiredPermission.contains permissionLocal.permission)

def canViewRelation (relation : Relation SimpleOffice) : Bool :=
  hasRequirements relation resolveRequirements

def canEditRelation (relation : Relation SimpleOffice) : Bool :=
  hasRequirements relation resolveRequirements

def canView (user : UserDetails) (item : SimpleOffice) : Bool :=
  canViewRelation (findRelation user item)

def canEdit (user : UserDetails) (item : SimpleOffice) : Bool :=
  canEditRelation (findRelation user item)

def checkView (user : UserDetails) (item : SimpleOffice) : Except HttpError Unit :=
  if !canView user item then throw CreateError.forbidden else pure ()

def checkEdit (user : UserDetails) (item : SimpleOffice) : Except HttpError Unit :=
  if !canEdit user item then throw CreateError.forbidden else pure ()

def officeQuery (item : SimpleOffice) (permission : PermissionType) : PermissionToCheck :=
  { level := .office, organizationId := item.publicId, permission := permission }

def HoldsRequired (customerGroup : OrganizationPermission) : Prop :=
  ∃ g ∈ customerGroup.permissions, g.permission ∈ resolveRequirements

theorem canEdit_eq_canView (user : UserDetails) (item : SimpleOffice) :
    canEdit user item = canView user item := rfl

theorem seed_iff {cg : OrganizationPermission} :
    (cg.permissions.any fun g => resolveRequirements.contains g.permission) = true ↔
      HoldsRequired cg := by
  simp only [List.any_eq_true, List.contains_iff_mem, HoldsRequired]

theorem canView_iff {user : UserDetails} {item : SimpleOffice} :
    canView user item = true ↔ .proAdmin ∈ user.globalPermissions ∨
      ∃ cg ∈ user.organizationPermissionTree.customerGroups, ∃ p ∈ resolveRequirements,
        ∃ path : PathTo [cg] (officeQuery item p), HoldsRequired cg ∨ path.Grants := by
  have hcheck : ∀ cg p, checkForPermission (officeQuery item p) cg
      (cg.permissions.any fun g => resolveRequirements.contains g.permission) = true ↔
      ∃ path : PathTo [cg] (officeQuery item p), HoldsRequired cg ∨ path.Grants := by
    intro cg p
    rw [checkForPermission_iff, seed_iff]
  have hglobal : (user.globalPermissions.any fun p => p == .proAdmin) = true ↔
      .proAdmin ∈ user.globalPermissions := by
    simp
  have hadmin : resolveRequirements.contains .proAdmin = true := by decide
  unfold canView canViewRelation findRelation hasRequirements
  simp only [Bool.or_eq_true, Bool.and_eq_true, hglobal, hadmin, and_true, List.any_eq_true]
  exact or_congr_right (exists_congr fun cg => and_congr_right fun _ =>
    exists_congr fun p => and_congr_right fun _ => hcheck cg p)

def HasPermissionAt (user : UserDetails) (item : SimpleOffice) : Prop :=
  .proAdmin ∈ user.globalPermissions ∨
    hasPermission { level := .office, organizationId := item.publicId, permission := .proProperty }
      (some user) = true ∨
    hasPermission { level := .office, organizationId := item.publicId, permission := .proAdmin }
      (some user) = true

/-- A grant of a required permission at a customer group decides nothing about
the office: the office is not below such a group, or the user is granted it
otherwise. -/
def SeedHarmless (user : UserDetails) (item : SimpleOffice) : Prop :=
  .proAdmin ∈ user.globalPermissions ∨
    (∃ p ∈ resolveRequirements, ∃ path : PathTo user.organizationPermissionTree.customerGroups
      (officeQuery item p), path.Grants) ∨
    ∀ cg ∈ user.organizationPermissionTree.customerGroups,
      HoldsRequired cg → ¬ Occurs [cg] .office item.publicId

theorem hasPermissionAt_iff {user : UserDetails} {item : SimpleOffice} :
    HasPermissionAt user item ↔ .proAdmin ∈ user.globalPermissions ∨
      ∃ p ∈ resolveRequirements, ∃ path : PathTo user.organizationPermissionTree.customerGroups
        (officeQuery item p), path.Grants := by
  simp only [HasPermissionAt, hasPermission_some, resolveRequirements, List.mem_cons,
    List.not_mem_nil, or_false, exists_eq_or_imp, exists_eq_left]
  rfl

theorem canView_of_hasPermissionAt {user : UserDetails} {item : SimpleOffice}
    (h : HasPermissionAt user item) : canView user item = true := by
  rw [canView_iff]
  refine (hasPermissionAt_iff.mp h).imp_right ?_
  intro hgranted
  rcases hgranted with ⟨p, hp, hgrants⟩
  obtain ⟨cg, hcg, path, hgrants⟩ := exists_grants_iff.mp hgrants
  exact ⟨cg, hcg, p, hp, path, Or.inr hgrants⟩

theorem not_seedHarmless_iff {user : UserDetails} {item : SimpleOffice} :
    ¬ SeedHarmless user item ↔ ¬ HasPermissionAt user item ∧
      ∃ cg ∈ user.organizationPermissionTree.customerGroups,
        HoldsRequired cg ∧ Occurs [cg] .office item.publicId := by
  simp only [SeedHarmless, ← or_assoc, not_or, hasPermissionAt_iff, not_forall, not_not, exists_prop]

/-- A seed opens the office exactly where the office occurs below its customer group. -/
theorem canView_iff_hasPermissionAt_or_seed {user : UserDetails} {item : SimpleOffice} :
    canView user item = true ↔ HasPermissionAt user item ∨
      ∃ cg ∈ user.organizationPermissionTree.customerGroups,
        HoldsRequired cg ∧ Occurs [cg] .office item.publicId := by
  have hoccurs : ∀ cg p, Occurs [cg] .office item.publicId ↔
      Nonempty (PathTo [cg] (officeQuery item p)) :=
    fun cg p => occurs_iff_nonempty_pathTo (q := officeQuery item p)
  constructor
  · rw [canView_iff, hasPermissionAt_iff]
    intro hview
    rcases hview with hglobal | ⟨cg, hcg, p, hp, path, hheld | hgrants⟩
    · exact Or.inl (Or.inl hglobal)
    · exact Or.inr ⟨cg, hcg, hheld, (hoccurs cg p).mpr ⟨path⟩⟩
    · exact Or.inl (Or.inr ⟨p, hp, exists_grants_iff.mpr ⟨cg, hcg, path, hgrants⟩⟩)
  · intro hallowed
    rcases hallowed with h | ⟨cg, hcg, hheld, hocc⟩
    · exact canView_of_hasPermissionAt h
    · obtain ⟨path⟩ := (hoccurs cg .proProperty).mp hocc
      exact canView_iff.mpr (Or.inr ⟨cg, hcg, .proProperty, by decide, path, Or.inl hheld⟩)

/-- The authorizer agrees with `hasPermission` exactly where its seeds are harmless. -/
theorem agrees_with_hasPermission_iff (user : UserDetails) (item : SimpleOffice) :
    ((canView user item = true ↔ HasPermissionAt user item) ∧
      (canEdit user item = true ↔ HasPermissionAt user item)) ↔ SeedHarmless user item := by
  rw [canEdit_eq_canView, and_self, canView_iff_hasPermissionAt_or_seed,
    ← not_iff_not (b := SeedHarmless user item), not_seedHarmless_iff, or_iff_left_iff_imp,
    Classical.not_imp, and_comm]

/-- An office below a customer and a customer group that holds `PRO_PROPERTY`
for itself only. -/
def groupOnlyUser : UserDetails where
  organizationPermissionTree := ⟨[⟨"group", .customerGroup,
    [⟨"customer", .customer, [⟨"office", .office, [], []⟩], []⟩], [⟨.none, .proProperty⟩]⟩]⟩
  globalPermissions := []

theorem groupOnlyUser_disagrees :
    ¬ ∀ (user : UserDetails) (item : SimpleOffice),
      (canView user item = true ↔ HasPermissionAt user item) ∧
        (canEdit user item = true ↔ HasPermissionAt user item) := by
  intro h
  have hview : canView groupOnlyUser ⟨some 1, "office"⟩ = true := by decide
  have hnot : ¬ HasPermissionAt groupOnlyUser ⟨some 1, "office"⟩ := by
    unfold HasPermissionAt
    decide
  exact hnot ((h groupOnlyUser ⟨some 1, "office"⟩).1.mp hview)

/-! An office that is not in the forest at all. -/

theorem not_hasPermission_of_absent {user : UserDetails} {q : PermissionToCheck}
    (h : ¬ Occurs user.organizationPermissionTree.customerGroups q.level q.organizationId) :
    hasPermission q (some user) = false := by
  rw [← Bool.not_eq_true, hasPermission_some]
  intro hgranted
  rcases hgranted with ⟨path, -⟩
  exact h (occurs_iff_nonempty_pathTo.mpr ⟨path⟩)

theorem occurs_of_group {forest : List OrganizationPermission} {cg : OrganizationPermission}
    {level : OrganizationType} {id : String} (hcg : cg ∈ forest) (h : Occurs [cg] level id) :
    Occurs forest level id := by
  obtain ⟨above, unit, ⟨⟨root, hroot, hhead⟩, hchain⟩, hfound⟩ := h
  have hmem : root ∈ forest := List.mem_singleton.mp hroot ▸ hcg
  exact ⟨above, unit, ⟨⟨root, hmem, hhead⟩, hchain⟩, hfound⟩

theorem canView_of_absent {user : UserDetails} {item : SimpleOffice}
    (hglobal : .proAdmin ∉ user.globalPermissions)
    (h : ¬ Occurs user.organizationPermissionTree.customerGroups .office item.publicId) :
    canView user item = false := by
  rw [← Bool.not_eq_true, canView_iff_hasPermissionAt_or_seed]
  intro hallowed
  rcases hallowed with (hadmin | hproperty | hadmin) | ⟨cg, hcg, -, hocc⟩
  · exact hglobal hadmin
  · rw [not_hasPermission_of_absent h] at hproperty
    exact Bool.false_ne_true hproperty
  · rw [not_hasPermission_of_absent h] at hadmin
    exact Bool.false_ne_true hadmin
  · exact h (occurs_of_group hcg hocc)

/-- Whatever the forest contains besides, an office that is not in it is closed
to everyone but a global administrator. -/
theorem closed_outside_forest (user : UserDetails) (item : SimpleOffice)
    (hglobal : .proAdmin ∉ user.globalPermissions)
    (h : ¬ Occurs user.organizationPermissionTree.customerGroups .office item.publicId) :
    canView user item = false ∧ canEdit user item = false ∧
      checkView user item = .error CreateError.forbidden ∧
      checkEdit user item = .error CreateError.forbidden := by
  have hview := canView_of_absent hglobal h
  have hedit : canEdit user item = false := (canEdit_eq_canView user item).trans hview
  refine ⟨hview, hedit, ?_, ?_⟩
  · unfold checkView
    rw [hview]
    rfl
  · unfold checkEdit
    rw [hedit]
    rfl

/-- A customer has the id of the office and every permission that is required. -/
def namesakeUser : UserDetails where
  organizationPermissionTree := ⟨[⟨"office", .customer, [],
    [⟨.inherit, .proProperty⟩, ⟨.inherit, .proAdmin⟩]⟩]⟩
  globalPermissions := []

theorem closed_outside_forest_namesakeUser :
    canView namesakeUser ⟨some 1, "office"⟩ = false ∧
      canEdit namesakeUser ⟨some 1, "office"⟩ = false ∧
      checkView namesakeUser ⟨some 1, "office"⟩ = .error CreateError.forbidden ∧
      checkEdit namesakeUser ⟨some 1, "office"⟩ = .error CreateError.forbidden :=
  closed_outside_forest namesakeUser ⟨some 1, "office"⟩ (by decide) (by decide)

end SampleAuthorizer
end Ovipro.Authorizer
