import OviproApi.HasPermission.Paths

/-! The two coarse checks against the precise one: what a permission of some
kind somewhere in the forest says about the permission for one organization. -/

namespace Ovipro.HasPermission
open Descent

/-- The unit is a node of the forest. -/
def IsUnitOf (forest : List OrganizationPermission) (n : OrganizationPermission) : Prop :=
  ∃ above, IsDownwardPath forest (above ++ [n])

def PassesOn (n : OrganizationPermission) : Prop :=
  ∃ g ∈ n.permissions, g.inheritanceType = .inherit

/-- The unit is a node of the forest without a unit of the level above it. -/
def Uncovered (forest : List OrganizationPermission) (T : OrganizationType)
    (n : OrganizationPermission) : Prop :=
  ∃ above, IsDownwardPath forest (above ++ [n]) ∧ ∀ a ∈ above, a.level ≠ T

/-- What the gate accepts a unit for. -/
def AcceptedFor (T : OrganizationType) (n : OrganizationPermission) : Prop :=
  (n.level = T ∧ n.permissions ≠ []) ∨ (n.level ≠ T ∧ PassesOn n)

/-- An entry is inherited from the unit, but by no unit of the level. -/
def Idle (T : OrganizationType) (n : OrganizationPermission) : Prop :=
  n.level ≠ T ∧ PassesOn n ∧ ∀ id, ¬ Occurs n.children T id

/-- Some unit of the level, at the first occurrence of its id, has an entry of
its own or one that is inherited from a unit above it. -/
def Granted (forest : List OrganizationPermission) (T : OrganizationType) : Prop :=
  ∃ above unit, IsDownwardPath forest (above ++ [unit]) ∧ unit.level = T ∧
    (∀ n ∈ above, ¬ (n.level = T ∧ n.id = unit.id)) ∧
    (unit.permissions ≠ [] ∨ ∃ n ∈ above, PassesOn n)

/-- No unit of the level lies below another one. -/
def NotNested (forest : List OrganizationPermission) (T : OrganizationType) : Prop :=
  ∀ n, IsUnitOf forest n → n.level = T → ∀ id, ¬ Occurs n.children T id

/-- No organization occurs below itself. -/
def NotRepeated (forest : List OrganizationPermission) : Prop :=
  ∀ n, IsUnitOf forest n → ¬ Occurs n.children n.level n.id

theorem isUnitOf_iff {forest : List OrganizationPermission} {n : OrganizationPermission} :
    IsUnitOf forest n ↔ ∃ t ∈ forest, n = t ∨ IsUnitOf t.children n := by
  constructor
  · intro hunit
    rcases hunit with ⟨above, hpath⟩
    cases above with
    | nil => exact ⟨n, (isDownwardPath_cons.mp hpath).1, Or.inl rfl⟩
    | cons t above =>
      rw [List.cons_append, isDownwardPath_cons] at hpath
      exact ⟨t, hpath.1, Or.inr ⟨above, hpath.2.resolve_left (by simp)⟩⟩
  · intro hroots
    rcases hroots with ⟨t, ht, rfl | ⟨above, hpath⟩⟩
    · exact ⟨[], isDownwardPath_cons.mpr ⟨ht, Or.inl rfl⟩⟩
    · exact ⟨t :: above, isDownwardPath_cons.mpr ⟨ht, Or.inr hpath⟩⟩

theorem not_occurs_nil (level : OrganizationType) (id : String) : ¬ Occurs [] level id := by
  intro hoccurs
  rcases hoccurs with ⟨above, n, ⟨⟨root, hroot, -⟩, -⟩, -⟩
  exact List.not_mem_nil hroot

theorem IsDownwardPath.split {forest xs ys : List OrganizationPermission}
    {a unit : OrganizationPermission} (h : IsDownwardPath forest (xs ++ a :: ys ++ [unit])) :
    IsDownwardPath forest (xs ++ [a]) ∧ IsDownwardPath a.children (ys ++ [unit]) := by
  rw [List.append_assoc, List.cons_append, isDownwardPath_append] at h
  exact ⟨h.1, h.2.resolve_left (by simp)⟩

/-- What lies above a unit on a path has it below. -/
theorem occurs_below {forest above : List OrganizationPermission} {a unit : OrganizationPermission}
    (h : IsDownwardPath forest (above ++ [unit])) (ha : a ∈ above) :
    IsUnitOf forest a ∧ Occurs a.children unit.level unit.id := by
  obtain ⟨xs, ys, rfl⟩ := List.append_of_mem ha
  obtain ⟨habove, hbelow⟩ := h.split
  exact ⟨⟨xs, habove⟩, ys, unit, hbelow, rfl, rfl⟩

/-- A path to an organization below a unit continues the path to the unit. -/
def PathTo.below {forest above : List OrganizationPermission} {n : OrganizationPermission}
    {q : PermissionToCheck} (hpath : IsDownwardPath forest (above ++ [n]))
    (hfirst : ∀ a ∈ above ++ [n], ¬ (a.level = q.level ∧ a.id = q.organizationId))
    (path : PathTo n.children q) : PathTo forest q where
  above := above ++ n :: path.above
  unit := path.unit
  downward := by
    rw [List.append_assoc, List.cons_append, isDownwardPath_append]
    exact ⟨hpath, Or.inr path.downward⟩
  first := by
    intro a ha
    rw [List.append_cons, List.mem_append] at ha
    exact ha.elim (hfirst a) (path.first a)
  found := path.found

theorem granted_iff {forest : List OrganizationPermission} {T : OrganizationType} :
    Granted forest T ↔ ∃ id p, ∃ path : PathTo forest ⟨T, id, p⟩, path.Grants := by
  constructor
  · intro hgranted
    rcases hgranted with ⟨above, unit, hpath, hlevel, hfirst, hown | ⟨n, hn, g, hg, hi⟩⟩
    · obtain ⟨g, hg⟩ := List.exists_mem_of_ne_nil _ hown
      exact ⟨unit.id, g.permission, ⟨above, unit, hpath, hfirst, hlevel, rfl⟩,
        Or.inl ⟨g, hg, rfl⟩⟩
    · exact ⟨unit.id, g.permission, ⟨above, unit, hpath, hfirst, hlevel, rfl⟩,
        Or.inr ⟨n, hn, g, hg, rfl, hi⟩⟩
  · intro hpaths
    rcases hpaths with ⟨id, p, ⟨above, unit, hpath, hfirst, hlevel, hid⟩, hgrants⟩
    refine ⟨above, unit, hpath, hlevel, ?_, ?_⟩
    · rw [hid]
      exact hfirst
    · rcases hgrants with ⟨g, hg, -⟩ | ⟨n, hn, g, hg, -, hi⟩
      · exact Or.inl (List.ne_nil_of_mem hg)
      · exact Or.inr ⟨n, hn, g, hg, hi⟩

theorem levelSearch_grants_iff {T : OrganizationType} {above : List OrganizationPermission}
    {n : OrganizationPermission} :
    (levelSearch T).grants false above n = true ↔ AcceptedFor T n := by
  unfold Search.grants AcceptedFor PassesOn levelSearch
  by_cases hlevel : n.level = T
  · simp [hlevel]
  · simp [hlevel]

/-- The gate opens exactly for an accepted unit that no unit of the level covers. -/
theorem hasAnyPermissionForOrganizationType_iff {forest : List OrganizationPermission}
    {T : OrganizationType} :
    hasAnyPermissionForOrganizationType forest T = true ↔
      ∃ n, Uncovered forest T n ∧ AcceptedFor T n := by
  have hrun : (fun t => treeHasAnyPermission t T) = (levelSearch T).run false := rfl
  have hstop : ∀ n : OrganizationPermission, (levelSearch T).stop n = false ↔ n.level ≠ T :=
    fun n => beq_eq_false_iff_ne
  rw [hasAnyPermissionForOrganizationType_eq, hrun, any_run_iff rfl]
  simp only [levelSearch_grants_iff, hstop]
  constructor
  · intro hpaths
    rcases hpaths with ⟨above, n, hpath, habove, haccepted⟩
    exact ⟨n, ⟨above, hpath, habove⟩, haccepted⟩
  · intro hunits
    rcases hunits with ⟨n, ⟨above, hpath, habove⟩, haccepted⟩
    exact ⟨above, n, hpath, habove, haccepted⟩

theorem hasPermissionAnywhere_iff_unit {forest : List OrganizationPermission}
    {p : PermissionType} :
    hasPermissionAnywhere forest p = true ↔
      ∃ n, IsUnitOf forest n ∧ ∃ g ∈ n.permissions, g.permission = p := by
  have hrun : (fun t => treeHasPermission t p) = (anywhereSearch p).run false := rfl
  have hgrants : ∀ above n, (anywhereSearch p).grants false above n = true ↔
      ∃ g ∈ n.permissions, g.permission = p := fun _ _ => checkPermission_iff
  rw [hasPermissionAnywhere_eq, hrun, any_run_iff rfl]
  simp only [hgrants]
  -- this search stops nowhere
  constructor
  · intro hpaths
    rcases hpaths with ⟨above, n, hpath, -, hheld⟩
    exact ⟨n, ⟨above, hpath⟩, hheld⟩
  · intro hunits
    rcases hunits with ⟨n, ⟨above, hpath⟩, hheld⟩
    exact ⟨above, n, hpath, fun _ _ => rfl, hheld⟩

/-! The gate of a level. -/

theorem NotNested.above {forest above : List OrganizationPermission} {T : OrganizationType}
    {unit : OrganizationPermission} (h : NotNested forest T)
    (hpath : IsDownwardPath forest (above ++ [unit])) (hlevel : unit.level = T) :
    ∀ a ∈ above, a.level ≠ T := by
  intro a ha hcovered
  obtain ⟨hunit, hbelow⟩ := occurs_below hpath ha
  rw [hlevel] at hbelow
  exact h a hunit hcovered unit.id hbelow

theorem uncovered_of_mem {forest above : List OrganizationPermission} {T : OrganizationType}
    {n unit : OrganizationPermission} (hpath : IsDownwardPath forest (above ++ [unit]))
    (habove : ∀ a ∈ above, a.level ≠ T) (hn : n ∈ above) : Uncovered forest T n := by
  obtain ⟨xs, ys, rfl⟩ := List.append_of_mem hn
  have hprefix := hpath.split.1
  exact ⟨xs, hprefix, fun a ha => habove a (List.mem_append_left _ ha)⟩

theorem accepted_of_grants {forest : List OrganizationPermission} {T : OrganizationType}
    {id : String} {p : PermissionType} (h : NotNested forest T)
    (path : PathTo forest ⟨T, id, p⟩) (hgrants : path.Grants) :
    ∃ n, Uncovered forest T n ∧ AcceptedFor T n := by
  have habove := h.above path.downward path.found.1
  rcases hgrants with ⟨g, hg, -⟩ | ⟨n, hn, g, hg, -, hi⟩
  · have hheld := List.ne_nil_of_mem hg
    exact ⟨path.unit, ⟨path.above, path.downward, habove⟩, Or.inl ⟨path.found.1, hheld⟩⟩
  · have huncovered := uncovered_of_mem path.downward habove hn
    exact ⟨n, huncovered, Or.inr ⟨habove n hn, g, hg, hi⟩⟩

/-- Where the level is not nested, the gate never turns away a user who has a
permission for some organization of the level. -/
theorem gate_complete (user : UserDetails) (T : OrganizationType)
    (h : NotNested user.organizationPermissionTree.customerGroups T)
    (hgranted : ∃ id p, hasPermission { level := T, organizationId := id, permission := p }
      (some user) = true) :
    hasAnyPermissionForOrganizationType user.organizationPermissionTree.customerGroups T = true := by
  obtain ⟨id, p, hp⟩ := hgranted
  obtain ⟨path, hgrants⟩ := hasPermission_some.mp hp
  rw [hasAnyPermissionForOrganizationType_iff]
  exact accepted_of_grants h path hgrants

/-- A customer group with one office; the group passes `PRO_ADMIN` on. -/
def adminGroupUser : UserDetails where
  organizationPermissionTree := ⟨[⟨"group", .customerGroup,
    [⟨"office", .office, [], []⟩], [⟨.inherit, .proAdmin⟩]⟩]⟩
  globalPermissions := []

theorem adminGroupUser_units {n : OrganizationPermission}
    (h : IsUnitOf adminGroupUser.organizationPermissionTree.customerGroups n) :
    n = ⟨"group", .customerGroup, [⟨"office", .office, [], []⟩], [⟨.inherit, .proAdmin⟩]⟩ ∨
      n = ⟨"office", .office, [], []⟩ := by
  obtain ⟨t, ht, rfl | hbelow⟩ := isUnitOf_iff.mp h
  · exact Or.inl (List.mem_singleton.mp ht)
  · rw [List.mem_singleton.mp ht] at hbelow
    obtain ⟨t, ht, rfl | hleaf⟩ := isUnitOf_iff.mp hbelow
    · exact Or.inr (List.mem_singleton.mp ht)
    · rw [List.mem_singleton.mp ht] at hleaf
      obtain ⟨t, ht, -⟩ := isUnitOf_iff.mp hleaf
      exact absurd ht List.not_mem_nil

theorem adminGroupUser_notNested :
    NotNested adminGroupUser.organizationPermissionTree.customerGroups .office := by
  intro n hn hlevel id hbelow
  rcases adminGroupUser_units hn with rfl | rfl
  · cases hlevel
  · exact not_occurs_nil _ _ hbelow

theorem gate_complete_adminGroupUser :
    hasAnyPermissionForOrganizationType
      adminGroupUser.organizationPermissionTree.customerGroups .office = true :=
  gate_complete adminGroupUser .office adminGroupUser_notNested ⟨"office", .proAdmin, by decide⟩

/-- The gate opens only for users with a permission for some organization of
the level, held there or inherited from above it. -/
def GateSound (user : UserDetails) (T : OrganizationType) : Prop :=
  hasAnyPermissionForOrganizationType user.organizationPermissionTree.customerGroups T = true →
    ∃ id, Occurs user.organizationPermissionTree.customerGroups T id ∧
      ∃ p, hasPermission { level := T, organizationId := id, permission := p } (some user) = true ∧
        ∃ path : PathTo user.organizationPermissionTree.customerGroups ⟨T, id, p⟩, path.Grants

theorem grants_of_granted {user : UserDetails} {T : OrganizationType}
    (h : Granted user.organizationPermissionTree.customerGroups T) :
    ∃ id, Occurs user.organizationPermissionTree.customerGroups T id ∧
      ∃ p, hasPermission { level := T, organizationId := id, permission := p } (some user) = true ∧
        ∃ path : PathTo user.organizationPermissionTree.customerGroups ⟨T, id, p⟩, path.Grants := by
  obtain ⟨id, p, path, hgrants⟩ := granted_iff.mp h
  have hoccurs := occurs_iff_nonempty_pathTo.mpr ⟨path⟩
  exact ⟨id, hoccurs, p, hasPermission_some.mpr ⟨path, hgrants⟩, path, hgrants⟩

/-- An accepted unit that is not idle leads to a grant. -/
theorem granted_of_accepted {forest : List OrganizationPermission} {T : OrganizationType}
    {n : OrganizationPermission} (huncovered : Uncovered forest T n) (haccepted : AcceptedFor T n)
    (hidle : ¬ Idle T n) : Granted forest T := by
  obtain ⟨above, hpath, habove⟩ := huncovered
  rcases haccepted with ⟨hlevel, hheld⟩ | ⟨hlevel, hpasses⟩
  · exact ⟨above, n, hpath, hlevel, fun a ha hfound => habove a ha hfound.1, Or.inl hheld⟩
  · have hbelow : ∃ id, Occurs n.children T id := by
      by_contra hnone
      exact hidle ⟨hlevel, hpasses, fun id hid => hnone ⟨id, hid⟩⟩
    obtain ⟨id, hoccurs⟩ := hbelow
    obtain ⟨g, hg, hi⟩ := hpasses
    obtain ⟨path⟩ := occurs_iff_nonempty_pathTo (q := ⟨T, id, g.permission⟩).mp hoccurs
    have hfirst : ∀ a ∈ above ++ [n], ¬ (a.level = T ∧ a.id = id) := by
      intro a ha hfound
      rcases List.mem_append.mp ha with ha | ha
      · exact habove a ha hfound.1
      · exact hlevel (List.mem_singleton.mp ha ▸ hfound.1)
    refine granted_iff.mpr ⟨id, g.permission, PathTo.below hpath hfirst path, Or.inr ?_⟩
    exact ⟨n, List.mem_append_right _ (List.mem_cons_self ..), g, hg, rfl, hi⟩

/-- The gate is sound exactly where an entry that is inherited by no unit of
the level is not all that it opens for. -/
theorem gateSound_iff (user : UserDetails) (T : OrganizationType) :
    GateSound user T ↔
      ((∃ n, Uncovered user.organizationPermissionTree.customerGroups T n ∧ Idle T n) →
        Granted user.organizationPermissionTree.customerGroups T) := by
  constructor
  · intro hsound hentry
    rcases hentry with ⟨n, huncovered, hlevel, hpasses, -⟩
    have hopen := hasAnyPermissionForOrganizationType_iff.mpr
      ⟨n, huncovered, Or.inr ⟨hlevel, hpasses⟩⟩
    obtain ⟨id, -, p, -, path, hgrants⟩ := hsound hopen
    exact granted_iff.mpr ⟨id, p, path, hgrants⟩
  · intro hcondition hopen
    obtain ⟨n, huncovered, haccepted⟩ := hasAnyPermissionForOrganizationType_iff.mp hopen
    apply grants_of_granted
    by_cases hidle : Idle T n
    · exact hcondition ⟨n, huncovered, hidle⟩
    · exact granted_of_accepted huncovered haccepted hidle

/-- A customer group that passes its permission on to nobody. -/
def childlessGroupUser : UserDetails where
  organizationPermissionTree := ⟨[⟨"group", .customerGroup, [], [⟨.inherit, .proProperty⟩]⟩]⟩
  globalPermissions := []

theorem childlessGroupUser_passes_gate :
    ¬ ∀ (user : UserDetails) (T : OrganizationType), GateSound user T := by
  intro h
  have hopen : hasAnyPermissionForOrganizationType
      childlessGroupUser.organizationPermissionTree.customerGroups .office = true := by decide
  obtain ⟨id, -, p, hp, -⟩ := h childlessGroupUser .office hopen
  have hnone : hasPermission { level := .office, organizationId := id, permission := p }
      (some childlessGroupUser) = false := rfl
  rw [hnone] at hp
  cases hp

/-! The search for a permission anywhere. -/

theorem NotRepeated.pathTo {forest above : List OrganizationPermission}
    {n : OrganizationPermission} (h : NotRepeated forest)
    (hpath : IsDownwardPath forest (above ++ [n])) (p : PermissionType) :
    ∃ path : PathTo forest ⟨n.level, n.id, p⟩, path.above = above ∧ path.unit = n := by
  have hfirst : ∀ a ∈ above, ¬ (a.level = n.level ∧ a.id = n.id) := by
    intro a ha hsame
    obtain ⟨hunit, hbelow⟩ := occurs_below hpath ha
    rw [← hsame.1, ← hsame.2] at hbelow
    exact h a hunit hbelow
  exact ⟨⟨above, n, hpath, hfirst, rfl, rfl⟩, rfl, rfl⟩

theorem PathTo.Grants.held {forest : List OrganizationPermission} {q : PermissionToCheck}
    {path : PathTo forest q} (h : path.Grants) :
    ∃ n, IsUnitOf forest n ∧ ∃ g ∈ n.permissions, g.permission = q.permission := by
  rcases h with hown | ⟨n, hn, g, hg, hp, -⟩
  · exact ⟨path.unit, ⟨path.above, path.downward⟩, hown⟩
  · have hunit := (occurs_below path.downward hn).1
    exact ⟨n, hunit, g, hg, hp⟩

/-- Where no organization occurs below itself, a permission is held anywhere
exactly if it is granted for some organization. -/
theorem hasPermissionAnywhere_iff_hasPermission (user : UserDetails) (p : PermissionType)
    (h : NotRepeated user.organizationPermissionTree.customerGroups) :
    hasPermissionAnywhere user.organizationPermissionTree.customerGroups p = true ↔
      ∃ level id, hasPermission { level := level, organizationId := id, permission := p }
        (some user) = true := by
  rw [hasPermissionAnywhere_iff_unit]
  constructor
  · intro hheld
    rcases hheld with ⟨n, ⟨above, hpath⟩, hown⟩
    obtain ⟨path, -, hunit⟩ := h.pathTo hpath p
    rw [← hunit] at hown
    have hgrants : path.Grants := Or.inl hown
    exact ⟨n.level, n.id, hasPermission_some.mpr ⟨path, hgrants⟩⟩
  · intro hgranted
    rcases hgranted with ⟨level, id, hp⟩
    obtain ⟨path, hgrants⟩ := hasPermission_some.mp hp
    exact hgrants.held

theorem adminGroupUser_notRepeated :
    NotRepeated adminGroupUser.organizationPermissionTree.customerGroups := by
  intro n hn
  rcases adminGroupUser_units hn with rfl | rfl
  · decide
  · decide

theorem hasPermissionAnywhere_iff_hasPermission_adminGroupUser :
    hasPermissionAnywhere adminGroupUser.organizationPermissionTree.customerGroups .proAdmin = true ↔
      ∃ level id, hasPermission { level := level, organizationId := id, permission := .proAdmin }
        (some adminGroupUser) = true :=
  hasPermissionAnywhere_iff_hasPermission adminGroupUser .proAdmin adminGroupUser_notRepeated

end Ovipro.HasPermission
