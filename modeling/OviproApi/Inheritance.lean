import OviproApi.HasPermission.LevelGate
import OviproApi.Revocation

/-! What inheriting means: a permission that is inherited counts as if it were applied
to every unit below the one that it is applied to. -/

namespace Ovipro.HasPermission
open Descent Authorizer

/-- The entries that the units below inherit. -/
def passedOn (permissions : List Permission) : List Permission :=
  permissions.filter fun g => g.inheritanceType == .inherit

def Permission.here (g : Permission) : Permission := { g with inheritanceType := .none }

mutual

/-- The unit with all entries that are valid for it applied to it, of which it inherits
some, and none that is inherited from it. -/
def OrganizationPermission.applied (inherited : List Permission) :
    OrganizationPermission → OrganizationPermission
  | ⟨id, level, children, permissions⟩ =>
    ⟨id, level, appliedForest (inherited ++ passedOn permissions) children,
      (inherited ++ permissions).map Permission.here⟩

def appliedForest (inherited : List Permission) :
    List OrganizationPermission → List OrganizationPermission
  | [] => []
  | t :: ts => t.applied inherited :: appliedForest inherited ts

end

theorem appliedForest_eq (inherited : List Permission) (forest : List OrganizationPermission) :
    appliedForest inherited forest = forest.map (OrganizationPermission.applied inherited) := by
  induction forest with
  | nil => rfl
  | cons t ts ih => rw [appliedForest, List.map_cons, ih]

section
variable (inherited : List Permission) (t : OrganizationPermission)

@[simp] theorem applied_id : (t.applied inherited).id = t.id := by
  cases t
  rfl

@[simp] theorem applied_level : (t.applied inherited).level = t.level := by
  cases t
  rfl

@[simp] theorem applied_permissions : (t.applied inherited).permissions =
    (inherited ++ t.permissions).map Permission.here := by
  cases t
  rfl

@[simp] theorem applied_children : (t.applied inherited).children =
    t.children.map (OrganizationPermission.applied (inherited ++ passedOn t.permissions)) := by
  obtain ⟨id, level, children, permissions⟩ := t
  exact appliedForest_eq _ children

@[simp] theorem applied_isOrganization (q : PermissionToCheck) :
    (t.applied inherited).isOrganization q = t.isOrganization q := by
  unfold OrganizationPermission.isOrganization
  rw [applied_id, applied_level]

end

section
variable (inherited permissions : List Permission) (p : PermissionType)

theorem checkPermission_append : checkPermission (inherited ++ permissions) p =
    (checkPermission inherited p || checkPermission permissions p) :=
  List.any_append

theorem checkPermission_here :
    checkPermission (permissions.map Permission.here) p = checkPermission permissions p := by
  unfold checkPermission
  rw [List.any_map]
  rfl

theorem checkInheritedPermission_here :
    checkInheritedPermission (permissions.map Permission.here) p = false := by
  unfold checkInheritedPermission
  rw [List.any_map, List.any_eq_false]
  intro g _
  simp [Permission.here]

theorem checkPermission_passedOn :
    checkPermission (passedOn permissions) p = checkInheritedPermission permissions p := by
  unfold checkPermission checkInheritedPermission passedOn
  rw [List.any_filter]
  congr 1
  funext g
  exact Bool.and_comm _ _

theorem checkPermission_of_inherited (h : checkInheritedPermission permissions p = true) :
    checkPermission permissions p = true := by
  obtain ⟨g, hg, hp, -⟩ := checkInheritedPermission_iff.mp h
  exact checkPermission_iff.mpr ⟨g, hg, hp⟩

end

/-- What is inherited grants at the units where it is applied now. -/
theorem permissionSearch_pushes (q : PermissionToCheck) :
    (permissionSearch q).Pushes OrganizationPermission.applied
      (fun inherited n => inherited ++ passedOn n.permissions)
      (fun inherited => checkPermission inherited q.permission) where
  stop inherited n := applied_isOrganization inherited n q
  children := applied_children
  hit flag inherited n := by
    simp only [permissionSearch, applied_permissions, checkPermission_here, checkPermission_append]
    exact (Bool.or_assoc ..).symm
  accept inherited n := rfl
  carry inherited n := by
    simp only [permissionSearch, applied_permissions]
    exact checkInheritedPermission_here ..
  held_below inherited n := by
    simp only [permissionSearch, checkPermission_append, checkPermission_passedOn]

theorem checkForPermission_applied (q : PermissionToCheck) (t : OrganizationPermission)
    (inherited : List Permission) (flag : Bool) :
    checkForPermission q (t.applied inherited) flag =
      checkForPermission q t (flag || checkPermission inherited q.permission) :=
  (permissionSearch_pushes q).run flag inherited t

theorem treeHasPermission_applied (t : OrganizationPermission) (inherited : List Permission)
    (p : PermissionType) : treeHasPermission (t.applied inherited) p =
      (checkPermission inherited p || treeHasPermission t p) := by
  induction t using OrganizationPermission.child_wellFounded.induction generalizing inherited with
  | _ t ih =>
    have hchildren : ((t.children.map (OrganizationPermission.applied
        (inherited ++ passedOn t.permissions))).any fun c => treeHasPermission c p) =
          t.children.any fun c => checkPermission (inherited ++ passedOn t.permissions) p ||
            treeHasPermission c p := by
      rw [List.any_map]
      exact Search.any_congr_of_mem fun c hc => ih c hc _
    rw [treeHasPermission_eq, treeHasPermission_eq t, applied_children, hchildren,
      applied_permissions, checkPermission_here, checkPermission_append, checkPermission_append,
      checkPermission_passedOn]
    cases hheld : checkPermission inherited p with
    | true => simp
    | false =>
      cases hown : checkPermission t.permissions p with
      | true => simp
      | false =>
        -- nothing is inherited from a unit that does not hold it
        have hnone : checkInheritedPermission t.permissions p = false := by
          rw [Bool.eq_false_iff]
          intro hinherits
          have hheld := checkPermission_of_inherited t.permissions p hinherits
          rw [hown] at hheld
          cases hheld
        simp [hnone]

theorem groupView_applied (item : SimpleOffice) (cg : OrganizationPermission) :
    groupView item (cg.applied []) = groupView item cg := by
  unfold groupView
  congr 1
  funext p
  rw [checkForPermission_applied, applied_permissions, List.nil_append, List.any_map]
  exact congrArg _ (Bool.or_false _)

/-- The units of an applied forest are applied units. -/
theorem exists_applied {n t : OrganizationPermission} {inherited : List Permission}
    (h : n = t.applied inherited ∨ IsUnitOf (t.applied inherited).children n) :
    ∃ (t' : OrganizationPermission) (inherited' : List Permission), n = t'.applied inherited' := by
  induction t using OrganizationPermission.child_wellFounded.induction generalizing inherited with
  | _ t ih =>
    rcases h with rfl | hbelow
    · exact ⟨t, inherited, rfl⟩
    · obtain ⟨c, hc, hunit⟩ := isUnitOf_iff.mp hbelow
      rw [applied_children] at hc
      obtain ⟨c', hc', rfl⟩ := List.mem_map.mp hc
      exact ih c' hc' hunit

/-- The forest with every entry applied to all units that it is valid for. -/
def applyInheritance (f : List OrganizationPermission) : List OrganizationPermission :=
  f.map (OrganizationPermission.applied [])

/-- Nothing is inherited in the applied forest, and it decides as the forest itself. -/
structure InheritanceApplied (globals : List PermissionType) (f : List OrganizationPermission) :
    Prop where
  alone : ∀ n, IsUnitOf (applyInheritance f) n → ¬ PassesOn n
  atOrganization : ∀ q, hasPermission q (some (userOf globals (applyInheritance f))) =
    hasPermission q (some (userOf globals f))
  anywhere : ∀ p, hasPermissionAnywhere (applyInheritance f) p = hasPermissionAnywhere f p
  view : ∀ item, SampleAuthorizer.canView (userOf globals (applyInheritance f)) item =
    SampleAuthorizer.canView (userOf globals f) item

theorem not_passesOn_applied (t : OrganizationPermission) (inherited : List Permission) :
    ¬ PassesOn (t.applied inherited) := by
  intro hpasses
  obtain ⟨g, hg, hinherit⟩ := hpasses
  rw [applied_permissions] at hg
  obtain ⟨g', -, rfl⟩ := List.mem_map.mp hg
  cases hinherit

/-- An inherited entry is short for the entry at all units below, at any depth. -/
theorem inheritance_applied (globals : List PermissionType) (f : List OrganizationPermission) :
    InheritanceApplied globals f where
  alone n hn := by
    obtain ⟨r, hr, hunit⟩ := isUnitOf_iff.mp hn
    obtain ⟨t, -, rfl⟩ := List.mem_map.mp hr
    obtain ⟨t', inherited, rfl⟩ := exists_applied hunit
    exact not_passesOn_applied t' inherited
  atOrganization q := by
    have hcheck : (fun t : OrganizationPermission => checkForPermission q (t.applied []) false) =
        fun t => checkForPermission q t false :=
      funext fun t => checkForPermission_applied q t [] false
    show (f.map (OrganizationPermission.applied [])).any _ = f.any _
    rw [List.any_map]
    exact congrArg f.any hcheck
  anywhere p := by
    have hheld : (fun t : OrganizationPermission => treeHasPermission (t.applied []) p) =
        fun t => treeHasPermission t p :=
      funext fun t => treeHasPermission_applied t [] p
    rw [hasPermissionAnywhere_eq, hasPermissionAnywhere_eq, applyInheritance, List.any_map]
    exact congrArg f.any hheld
  view item := by
    have hview : (fun cg : OrganizationPermission => groupView item (cg.applied [])) =
        groupView item := funext fun cg => groupView_applied item cg
    rw [canView_eq_any, canView_eq_any, applyInheritance, List.any_map]
    exact congrArg (fun found => (globals.any fun p => p == .proAdmin) || found)
      (congrArg f.any hview)

/-! The gate on the applied forest. -/

theorem passedOn_ne_nil_iff {t : OrganizationPermission} :
    passedOn t.permissions ≠ [] ↔ PassesOn t := by
  constructor
  · intro hne
    obtain ⟨g, hg⟩ := List.exists_mem_of_ne_nil _ hne
    obtain ⟨hmem, hinherit⟩ := List.mem_filter.mp hg
    exact ⟨g, hmem, beq_iff_eq.mp hinherit⟩
  · intro hpasses
    obtain ⟨g, hg, hinherit⟩ := hpasses
    exact List.ne_nil_of_mem (List.mem_filter.mpr ⟨hg, beq_iff_eq.mpr hinherit⟩)

/-- The unit has an entry of its own, or inherits one in its context or from above. -/
def HasEntry (inherited : List Permission) (above : List OrganizationPermission)
    (unit : OrganizationPermission) : Prop :=
  inherited ≠ [] ∨ unit.permissions ≠ [] ∨ ∃ n ∈ above, PassesOn n

theorem hasEntry_below {inherited : List Permission} {t unit : OrganizationPermission}
    {above : List OrganizationPermission} :
    HasEntry (inherited ++ passedOn t.permissions) above unit ↔
      HasEntry inherited (t :: above) unit := by
  have happend : inherited ++ passedOn t.permissions ≠ [] ↔ inherited ≠ [] ∨ PassesOn t := by
    rw [← passedOn_ne_nil_iff, ← not_and_or, ← List.append_eq_nil_iff]
  unfold HasEntry
  rw [happend]
  simp only [List.mem_cons, exists_eq_or_imp]
  tauto

/-- The gate of an applied unit looks for a unit of the level that has an entry. -/
theorem treeHasAnyPermission_applied (t : OrganizationPermission) (inherited : List Permission)
    (T : OrganizationType) : treeHasAnyPermission (t.applied inherited) T = true ↔
      ∃ above unit, Walk OrganizationPermission.children (fun n => n.level == T) t above unit ∧
        unit.level = T ∧ HasEntry inherited above unit := by
  induction t using OrganizationPermission.child_wellFounded.induction generalizing inherited with
  | _ t ih =>
    rw [treeHasAnyPermission_eq, applied_level]
    by_cases hlevel : t.level = T
    · have hlength : ((t.applied inherited).permissions.length != 0) = true ↔
          HasEntry inherited [] t := by
        rw [applied_permissions]
        cases inherited <;> cases hown : t.permissions <;> simp [HasEntry, hown]
      rw [if_pos (beq_iff_eq.mpr hlevel), hlength]
      constructor
      · intro hentry
        exact ⟨[], t, .here t, hlevel, hentry⟩
      · rintro ⟨above, unit, hwalk, -, hentry⟩
        cases hwalk with
        | here _ => exact hentry
        | down hpassed _ _ => exact absurd hlevel (beq_eq_false_iff_ne.mp hpassed)
    · have hinherits : ((t.applied inherited).permissions.any fun g =>
          g.inheritanceType == .inherit) = false := by
        rw [List.any_eq_false]
        intro g hg hinherit
        exact not_passesOn_applied t inherited ⟨g, hg, beq_iff_eq.mp hinherit⟩
      have hpassed : (t.level == T) = false := beq_eq_false_iff_ne.mpr hlevel
      rw [if_neg (by simp [hlevel]), hinherits, Bool.false_or, applied_children, List.any_map,
        List.any_eq_true]
      constructor
      · rintro ⟨c, hc, hgate⟩
        obtain ⟨above, unit, hwalk, hunit, hentry⟩ := (ih c hc _).mp hgate
        exact ⟨t :: above, unit, .down hpassed hc hwalk, hunit, hasEntry_below.mp hentry⟩
      · rintro ⟨above, unit, hwalk, hunit, hentry⟩
        cases hwalk with
        | here _ => exact absurd hunit hlevel
        | @down _ c _ above _ hc hbelow =>
          have hentry := hasEntry_below.mpr hentry
          exact ⟨c, hc, (ih c hc _).mpr ⟨above, unit, hbelow, hunit, hentry⟩⟩

theorem hasAnyPermissionForOrganizationType_applied {f : List OrganizationPermission}
    {T : OrganizationType} :
    hasAnyPermissionForOrganizationType (applyInheritance f) T = true ↔
      ∃ above unit, IsDownwardPath f (above ++ [unit]) ∧ (∀ a ∈ above, a.level ≠ T) ∧
        unit.level = T ∧ HasEntry [] above unit := by
  have hpath : ∀ above unit, (IsDownwardPath f (above ++ [unit]) ∧ ∀ a ∈ above, a.level ≠ T) ↔
      ∃ t ∈ f, Walk OrganizationPermission.children (fun n => n.level == T) t above unit := by
    intro above unit
    rw [← isDownwardPath_iff_walk]
    simp only [beq_eq_false_iff_ne, ne_eq]
  rw [hasAnyPermissionForOrganizationType_eq, applyInheritance, List.any_map, List.any_eq_true]
  constructor
  · rintro ⟨t, ht, hgate⟩
    obtain ⟨above, unit, hwalk, hunit, hentry⟩ := (treeHasAnyPermission_applied t [] T).mp hgate
    obtain ⟨hdown, habove⟩ := (hpath above unit).mpr ⟨t, ht, hwalk⟩
    exact ⟨above, unit, hdown, habove, hunit, hentry⟩
  · rintro ⟨above, unit, hdown, habove, hunit, hentry⟩
    obtain ⟨t, ht, hwalk⟩ := (hpath above unit).mp ⟨hdown, habove⟩
    exact ⟨t, ht, (treeHasAnyPermission_applied t [] T).mpr ⟨above, unit, hwalk, hunit, hentry⟩⟩

/-- Where the level is not nested, the gate on the applied forest opens exactly for the
users with a permission for some organization of the level. -/
theorem gate_applied_iff_granted {f : List OrganizationPermission} {T : OrganizationType}
    (h : NotNested f T) :
    hasAnyPermissionForOrganizationType (applyInheritance f) T = true ↔ Granted f T := by
  rw [hasAnyPermissionForOrganizationType_applied]
  constructor
  · rintro ⟨above, unit, hdown, habove, hunit, hentry⟩
    exact ⟨above, unit, hdown, hunit, fun n hn hfound => habove n hn hfound.1,
      hentry.resolve_left (by simp)⟩
  · rintro ⟨above, unit, hdown, hunit, -, hentry⟩
    exact ⟨above, unit, hdown, h.above hdown hunit, hunit, Or.inr hentry⟩

theorem gate_of_applied {f : List OrganizationPermission} {T : OrganizationType}
    (h : hasAnyPermissionForOrganizationType (applyInheritance f) T = true) :
    hasAnyPermissionForOrganizationType f T = true := by
  obtain ⟨above, unit, hdown, habove, hunit, hentry⟩ :=
    hasAnyPermissionForOrganizationType_applied.mp h
  apply hasAnyPermissionForOrganizationType_iff.mpr
  rcases hentry with hnil | hown | ⟨n, hn, hpasses⟩
  · exact absurd rfl hnil
  · exact ⟨unit, ⟨above, hdown, habove⟩, Or.inl ⟨hunit, hown⟩⟩
  · exact ⟨n, uncovered_of_mem hdown habove hn, Or.inr ⟨habove n hn, hpasses⟩⟩

/-- On the applied forest the gate is exact where the level is not nested, and the gate
on the forest itself is sound exactly where the two agree. -/
theorem gate_of_applied_exact (user : UserDetails) (T : OrganizationType)
    (h : NotNested user.organizationPermissionTree.customerGroups T) :
    (hasAnyPermissionForOrganizationType
        (applyInheritance user.organizationPermissionTree.customerGroups) T = true ↔
      ∃ id p, hasPermission { level := T, organizationId := id, permission := p }
        (some user) = true) ∧
    (GateSound user T ↔
      hasAnyPermissionForOrganizationType user.organizationPermissionTree.customerGroups T =
        hasAnyPermissionForOrganizationType
          (applyInheritance user.organizationPermissionTree.customerGroups) T) := by
  have hgranted := gate_applied_iff_granted h
  refine ⟨?_, fun hsound => ?_, fun hsame hopen => ?_⟩
  · rw [hgranted, granted_iff]
    simp only [hasPermission_some]
  · refine Bool.eq_iff_iff.mpr ⟨fun hopen => ?_, gate_of_applied⟩
    obtain ⟨id, -, p, -, path, hgrants⟩ := hsound hopen
    exact hgranted.mpr (granted_iff.mpr ⟨id, p, path, hgrants⟩)
  · rw [hsame] at hopen
    exact grants_of_granted (hgranted.mp hopen)

theorem gate_of_applied_exact_adminGroupUser :
    (hasAnyPermissionForOrganizationType
        (applyInheritance adminGroupUser.organizationPermissionTree.customerGroups) .office = true ↔
      ∃ id p, hasPermission { level := .office, organizationId := id, permission := p }
        (some adminGroupUser) = true) ∧
    (GateSound adminGroupUser .office ↔
      hasAnyPermissionForOrganizationType adminGroupUser.organizationPermissionTree.customerGroups
          .office =
        hasAnyPermissionForOrganizationType
          (applyInheritance adminGroupUser.organizationPermissionTree.customerGroups) .office) :=
  gate_of_applied_exact adminGroupUser .office adminGroupUser_notNested

end Ovipro.HasPermission
