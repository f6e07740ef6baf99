import OviproApi.Monotonicity

/-! What a user is granted is granted by the single entries of the forest: the
entries can be split in any way, and revoking a permission takes away what
depends on it and nothing else. -/

namespace Ovipro.HasPermission
open Descent Authorizer

mutual

/-- The unit with those of its entries, and of those below it, that are kept. -/
def OrganizationPermission.only (keep : OrganizationPermission → Permission → Bool) :
    OrganizationPermission → OrganizationPermission
  | ⟨id, level, children, permissions⟩ =>
    ⟨id, level, onlyForest keep children,
      permissions.filter (keep ⟨id, level, children, permissions⟩)⟩

def onlyForest (keep : OrganizationPermission → Permission → Bool) :
    List OrganizationPermission → List OrganizationPermission
  | [] => []
  | t :: ts => t.only keep :: onlyForest keep ts

end

theorem onlyForest_eq (keep : OrganizationPermission → Permission → Bool)
    (forest : List OrganizationPermission) :
    onlyForest keep forest = forest.map (OrganizationPermission.only keep) := by
  induction forest with
  | nil => rfl
  | cons t ts ih => rw [onlyForest, List.map_cons, ih]

section
variable (keep : OrganizationPermission → Permission → Bool) (t : OrganizationPermission)

@[simp] theorem only_id : (t.only keep).id = t.id := by
  cases t
  rfl

@[simp] theorem only_level : (t.only keep).level = t.level := by
  cases t
  rfl

@[simp] theorem only_permissions :
    (t.only keep).permissions = t.permissions.filter (keep t) := by
  cases t
  rfl

@[simp] theorem only_children :
    (t.only keep).children = t.children.map (OrganizationPermission.only keep) := by
  obtain ⟨id, level, children, permissions⟩ := t
  exact onlyForest_eq keep children

@[simp] theorem only_isOrganization (q : PermissionToCheck) :
    (t.only keep).isOrganization q = t.isOrganization q := by
  unfold OrganizationPermission.isOrganization
  rw [only_id, only_level]

end

/-- An entry is found among those that are kept or among the others. -/
theorem any_filter_split (keep p : Permission → Bool) (permissions : List Permission) :
    permissions.any p = ((permissions.filter keep).any p ||
      (permissions.filter fun g => !keep g).any p) := by
  rw [List.any_filter, List.any_filter, ← Search.any_or]
  congr 1
  funext g
  cases keep g <;> cases p g <;> rfl

section
variable (keep : OrganizationPermission → Permission → Bool)

/-- The entries that are not kept. -/
def others : OrganizationPermission → Permission → Bool := fun t g => !keep t g

theorem permissionSearch_splits (q : PermissionToCheck) :
    (permissionSearch q).Splits (OrganizationPermission.only keep)
      (OrganizationPermission.only (others keep)) where
  stop_left n := only_isOrganization keep n q
  stop_right n := only_isOrganization (others keep) n q
  children_left := only_children keep
  children_right := only_children (others keep)
  hit a b n := by
    have hown : checkPermission n.permissions q.permission = _ :=
      any_filter_split (keep n) _ n.permissions
    simp only [permissionSearch, only_permissions, hown]
    unfold checkPermission others
    ac_rfl
  accept n := rfl
  carry n := by
    simp only [permissionSearch, only_permissions]
    exact any_filter_split (keep n) _ n.permissions

theorem anywhereSearch_splits (p : PermissionType) :
    (anywhereSearch p).Splits (OrganizationPermission.only keep)
      (OrganizationPermission.only (others keep)) where
  stop_left n := rfl
  stop_right n := rfl
  children_left := only_children keep
  children_right := only_children (others keep)
  hit a b n := rfl
  accept n := by
    simp only [anywhereSearch, only_permissions]
    exact any_filter_split (keep n) _ n.permissions
  carry n := rfl

theorem levelSearch_splits (T : OrganizationType) :
    (levelSearch T).Splits (OrganizationPermission.only keep)
      (OrganizationPermission.only (others keep)) where
  stop_left n := by simp only [levelSearch, only_level]
  stop_right n := by simp only [levelSearch, only_level]
  children_left := only_children keep
  children_right := only_children (others keep)
  hit a b n := by
    have hany : ∀ permissions : List Permission,
        (permissions.length != 0) = permissions.any fun _ => true := by
      intro permissions
      cases permissions <;> rfl
    simp only [levelSearch, only_permissions, hany]
    exact any_filter_split (keep n) _ n.permissions
  accept n := by
    simp only [levelSearch, only_permissions]
    exact any_filter_split (keep n) _ n.permissions
  carry n := rfl

end

/-- Whatever is decided on the first forest is decided on one of the two others. -/
structure Splits (globals : List PermissionType) (f f₁ f₂ : List OrganizationPermission) :
    Prop where
  atOrganization : ∀ q, hasPermission q (some (userOf globals f)) =
    (hasPermission q (some (userOf globals f₁)) || hasPermission q (some (userOf globals f₂)))
  anywhere : ∀ p, hasPermissionAnywhere f p =
    (hasPermissionAnywhere f₁ p || hasPermissionAnywhere f₂ p)
  atLevel : ∀ T, hasAnyPermissionForOrganizationType f T =
    (hasAnyPermissionForOrganizationType f₁ T || hasAnyPermissionForOrganizationType f₂ T)
  view : ∀ item, SampleAuthorizer.canView (userOf globals f) item =
    (SampleAuthorizer.canView (userOf globals f₁) item ||
      SampleAuthorizer.canView (userOf globals f₂) item)

/-- Whether an office can be viewed by the permissions below a customer group. -/
def groupView (item : SimpleOffice) (cg : OrganizationPermission) : Bool :=
  SampleAuthorizer.resolveRequirements.any fun p =>
    checkForPermission (SampleAuthorizer.officeQuery item p) cg
      (cg.permissions.any fun g => SampleAuthorizer.resolveRequirements.contains g.permission)

theorem canView_eq_any (globals : List PermissionType) (f : List OrganizationPermission)
    (item : SimpleOffice) :
    SampleAuthorizer.canView (userOf globals f) item =
      ((globals.any fun p => p == .proAdmin) || f.any (groupView item)) := by
  have hadmin : SampleAuthorizer.resolveRequirements.contains .proAdmin = true := by decide
  unfold SampleAuthorizer.canView SampleAuthorizer.canViewRelation SampleAuthorizer.hasRequirements
  rw [hadmin, Bool.and_true]
  rfl

theorem groupView_split (keep : OrganizationPermission → Permission → Bool) (item : SimpleOffice)
    (cg : OrganizationPermission) :
    groupView item cg = (groupView item (cg.only keep) || groupView item (cg.only (others keep))) := by
  have hrun : ∀ q flag t, checkForPermission q t flag = (permissionSearch q).run flag t :=
    fun _ _ _ => rfl
  unfold groupView
  rw [← Search.any_or, only_permissions, only_permissions]
  congr 1
  funext p
  -- the seed is split between the copies like the entries that it comes from
  rw [any_filter_split (keep cg), hrun, hrun, hrun]
  exact (permissionSearch_splits keep _).run _ _ cg

section
variable (keep : OrganizationPermission → Permission → Bool) (f : List OrganizationPermission)

theorem hasPermission_split (globals : List PermissionType) (q : PermissionToCheck) :
    hasPermission q (some (userOf globals f)) =
      (hasPermission q (some (userOf globals (f.map (OrganizationPermission.only keep)))) ||
        hasPermission q (some (userOf globals
          (f.map (OrganizationPermission.only (others keep)))))) :=
  (permissionSearch_splits keep q).any f

theorem hasPermissionAnywhere_split (p : PermissionType) :
    hasPermissionAnywhere f p =
      (hasPermissionAnywhere (f.map (OrganizationPermission.only keep)) p ||
        hasPermissionAnywhere (f.map (OrganizationPermission.only (others keep))) p) := by
  rw [hasPermissionAnywhere_eq, hasPermissionAnywhere_eq, hasPermissionAnywhere_eq]
  exact (anywhereSearch_splits keep p).any f

theorem hasAnyPermissionForOrganizationType_split (T : OrganizationType) :
    hasAnyPermissionForOrganizationType f T =
      (hasAnyPermissionForOrganizationType (f.map (OrganizationPermission.only keep)) T ||
        hasAnyPermissionForOrganizationType
          (f.map (OrganizationPermission.only (others keep))) T) := by
  rw [hasAnyPermissionForOrganizationType_eq, hasAnyPermissionForOrganizationType_eq,
    hasAnyPermissionForOrganizationType_eq]
  exact (levelSearch_splits keep T).any f

theorem groups_split (item : SimpleOffice) :
    f.any (groupView item) = ((f.map (OrganizationPermission.only keep)).any (groupView item) ||
      (f.map (OrganizationPermission.only (others keep))).any (groupView item)) := by
  have hgroups : groupView item = fun cg =>
      groupView item (cg.only keep) || groupView item (cg.only (others keep)) :=
    funext fun cg => groupView_split keep item cg
  conv_lhs => rw [hgroups]
  rw [List.any_map, List.any_map]
  exact Search.any_or ..

theorem canView_split (globals : List PermissionType) (item : SimpleOffice) :
    SampleAuthorizer.canView (userOf globals f) item =
      (SampleAuthorizer.canView (userOf globals (f.map (OrganizationPermission.only keep))) item ||
        SampleAuthorizer.canView
          (userOf globals (f.map (OrganizationPermission.only (others keep)))) item) := by
  rw [canView_eq_any, canView_eq_any, canView_eq_any, groups_split keep f item]
  cases globals.any fun p => p == .proAdmin <;> rfl

end

/-- The decisions of all four checks come from the single entries: however these
are shared out over two copies of the forest, whatever is granted is granted on
one of the copies. -/
theorem decisions_split (globals : List PermissionType) (f : List OrganizationPermission)
    (keep : OrganizationPermission → Permission → Bool) :
    Splits globals f (f.map (OrganizationPermission.only keep))
      (f.map (OrganizationPermission.only (others keep))) where
  atOrganization := hasPermission_split keep f globals
  anywhere := hasPermissionAnywhere_split keep f
  atLevel := hasAnyPermissionForOrganizationType_split keep f
  view := canView_split keep f globals

/-! Revoking permissions. -/

/-- The forest with the entries of some types only. -/
def holding (types : PermissionType → Bool) (f : List OrganizationPermission) :
    List OrganizationPermission :=
  f.map (OrganizationPermission.only fun _ g => types g.permission)

/-- The forest without the entries of the permissions. -/
def revoke (revoked : List PermissionType) (f : List OrganizationPermission) :
    List OrganizationPermission :=
  holding (fun p => !revoked.contains p) f

theorem only_only (types types' : PermissionType → Bool) (t : OrganizationPermission) :
    (t.only fun _ g => types g.permission).only (fun _ g => types' g.permission) =
      t.only fun _ g => types g.permission && types' g.permission := by
  induction t using OrganizationPermission.child_wellFounded.induction with
  | _ t ih =>
    obtain ⟨id, level, children, permissions⟩ := t
    simp only [OrganizationPermission.only, onlyForest_eq, List.map_map, List.filter_filter]
    congr 1
    · apply List.map_congr_left
      intro c hc
      exact ih c hc
    · congr 1
      funext g
      exact Bool.and_comm ..

theorem holding_holding (types types' : PermissionType → Bool)
    (f : List OrganizationPermission) :
    holding types' (holding types f) = holding (fun p => types p && types' p) f := by
  unfold holding
  rw [List.map_map]
  apply List.map_congr_left
  intro t _
  exact only_only types types' t

def PermissionType.all : List PermissionType :=
  [.proSelfViewer, .proViewer, .proProperty, .proShowingEdit, .proExtraVisibilityPurchases,
    .proUsermanagement, .proCompanyinfomanagement, .proCcInvoicing, .proMarketplaces, .proPurchase,
    .proReports, .proCustomers, .proAssignments, .proNewspaperads, .proInvoicingView,
    .proInvoicingEdit, .proPropertyPresentations, .proMultimediaEdit, .proAdmin]

theorem PermissionType.mem_all (p : PermissionType) : p ∈ all := by
  cases p <;> decide

section
variable {decides : List OrganizationPermission → Bool} {required revoked : List PermissionType}

/-- The decision comes from single entries. -/
def FromEntries (decides : List OrganizationPermission → Bool) : Prop :=
  ∀ keep f, decides f = (decides (f.map (OrganizationPermission.only keep)) ||
    decides (f.map (OrganizationPermission.only (others keep))))

/-- Nothing is granted without an entry of one of the types. -/
def Needs (required : List PermissionType) (decides : List OrganizationPermission → Bool) : Prop :=
  ∀ types f, (∀ p ∈ required, types p = false) → decides (holding types f) = false

/-- A decision that comes from the single entries comes from the entries of a single
type. The induction is on the types that may still occur. -/
theorem FromEntries.holding_of_subset (hsplit : FromEntries decides)
    (hneeds : Needs required decides) (f : List OrganizationPermission)
    (ps : List PermissionType) :
    ∀ types : PermissionType → Bool, (∀ p, types p = true → p ∈ ps) →
      (decides (holding types f) = true ↔
        ∃ p, types p = true ∧ decides (holding (· == p) f) = true) := by
  have hnone : decides (holding (fun _ => false) f) = false := hneeds _ f fun _ _ => rfl
  induction ps with
  | nil =>
    intro types hsub
    have htypes : types = fun _ => false :=
      funext fun p => Bool.eq_false_iff.mpr fun hp => List.not_mem_nil (hsub p hp)
    subst htypes
    rw [hnone]
    simp
  | cons p ps ih =>
    intro types hsub
    have hrest : ∀ p', (types p' && !(p' == p)) = true → p' ∈ ps := by
      intro p' hp'
      rw [Bool.and_eq_true, Bool.not_eq_true', beq_eq_false_iff_ne] at hp'
      exact (List.mem_cons.mp (hsub p' hp'.1)).resolve_left hp'.2
    have hfirst : decides (holding (fun p' => types p' && p' == p) f) = true ↔
        types p = true ∧ decides (holding (· == p) f) = true := by
      cases hp : types p with
      | true =>
        have hone : (fun p' => types p' && p' == p) = (· == p) := by
          funext p'
          cases heq : p' == p with
          | true => rw [eq_of_beq heq, hp, Bool.true_and]
          | false => rw [Bool.and_false]
        rw [hone]
        simp
      | false =>
        have hzero : (fun p' => types p' && p' == p) = fun _ => false := by
          funext p'
          cases heq : p' == p with
          | true => rw [eq_of_beq heq, hp, Bool.false_and]
          | false => rw [Bool.and_false]
        rw [hzero, hnone]
        simp
    have hsplit' : decides (holding types f) =
        (decides (holding (fun p' => types p' && p' == p) f) ||
          decides (holding (fun p' => types p' && !(p' == p)) f)) := by
      rw [← holding_holding types (· == p), ← holding_holding types fun p' => !(p' == p)]
      exact hsplit (fun _ g => g.permission == p) _
    rw [hsplit', Bool.or_eq_true, hfirst, ih _ hrest]
    constructor
    · rintro (⟨hp, hd⟩ | ⟨p', hp', hd⟩)
      · exact ⟨p, hp, hd⟩
      · exact ⟨p', (Bool.and_eq_true .. ▸ hp').1, hd⟩
    · intro hsome
      rcases hsome with ⟨p', hp', hd⟩
      by_cases heq : p' = p
      · subst heq
        exact Or.inl ⟨hp', hd⟩
      · exact Or.inr ⟨p', by simp [hp', heq], hd⟩

/-- What is left comes from the entries of a single type that is not revoked. -/
theorem FromEntries.revoke_iff (hsplit : FromEntries decides) (hneeds : Needs required decides)
    (revoked : List PermissionType) (f : List OrganizationPermission) :
    decides (revoke revoked f) = true ↔
      ∃ p, p ∉ revoked ∧ decides (holding (· == p) f) = true := by
  rw [revoke, hsplit.holding_of_subset hneeds f PermissionType.all _ fun p _ =>
    PermissionType.mem_all p]
  simp

theorem Needs.lost (hneeds : Needs required decides) (h : ∀ p ∈ required, p ∈ revoked)
    (f : List OrganizationPermission) : decides (revoke revoked f) = false := by
  apply hneeds
  intro p hp
  rw [List.contains_iff_mem.mpr (h p hp), Bool.not_true]

theorem Needs.kept (hneeds : Needs required decides) (hsplit : FromEntries decides)
    (h : ∀ p ∈ required, p ∉ revoked) (f : List OrganizationPermission) :
    decides (revoke revoked f) = decides f := by
  have hothers : decides (f.map (OrganizationPermission.only
      (others fun _ g => !revoked.contains g.permission))) = false := by
    apply hneeds fun p => !!revoked.contains p
    intro p hp
    rw [Bool.not_not, Bool.eq_false_iff, Ne, List.contains_iff_mem]
    exact h p hp
  rw [hsplit (fun _ g => !revoked.contains g.permission) f, hothers, Bool.or_false]
  rfl

/-- A decision about one type. -/
theorem Needs.revoke_eq {p : PermissionType} (hneeds : Needs [p] decides)
    (hsplit : FromEntries decides) (revoked : List PermissionType)
    (f : List OrganizationPermission) :
    decides (revoke revoked f) = (!revoked.contains p && decides f) := by
  by_cases hp : p ∈ revoked
  · rw [hneeds.lost (List.forall_mem_singleton.mpr hp) f, List.contains_iff_mem.mpr hp]
    rfl
  · have hcontains : revoked.contains p = false := by simpa using hp
    rw [hneeds.kept hsplit (List.forall_mem_singleton.mpr hp) f, hcontains]
    rfl

end

section
variable {keep : OrganizationPermission → Permission → Bool} {p : PermissionType}

/-- The unit with the entries of some unit that are kept. -/
def Kept (keep : OrganizationPermission → Permission → Bool) (n : OrganizationPermission) : Prop :=
  ∃ t : OrganizationPermission, n = t.only keep

theorem kept_children (n : OrganizationPermission) (h : Kept keep n) :
    ∀ c ∈ n.children, Kept keep c := by
  obtain ⟨t, rfl⟩ := h
  intro c hc
  rw [only_children] at hc
  obtain ⟨t', -, rfl⟩ := List.mem_map.mp hc
  exact ⟨t', rfl⟩

theorem checkPermission_of_kept (h : ∀ t g, keep t g = true → g.permission ≠ p)
    (n : OrganizationPermission) (hn : Kept keep n) :
    checkPermission n.permissions p = false := by
  obtain ⟨t, rfl⟩ := hn
  rw [Bool.eq_false_iff, Ne, checkPermission_iff, only_permissions]
  intro hheld
  rcases hheld with ⟨g, hg, hp⟩
  exact h t g (List.mem_filter.mp hg).2 hp

theorem checkInheritedPermission_of_kept (h : ∀ t g, keep t g = true → g.permission ≠ p)
    (n : OrganizationPermission) (hn : Kept keep n) :
    checkInheritedPermission n.permissions p = false := by
  have hnone := checkPermission_of_kept h n hn
  rw [Bool.eq_false_iff, Ne, checkPermission_iff] at hnone
  rw [Bool.eq_false_iff, Ne, checkInheritedPermission_iff]
  intro hheld
  rcases hheld with ⟨g, hg, hp, -⟩
  exact hnone ⟨g, hg, hp⟩

theorem checkForPermission_of_kept {q : PermissionToCheck}
    (h : ∀ t g, keep t g = true → g.permission ≠ q.permission) (t : OrganizationPermission) :
    checkForPermission q (t.only keep) false = false :=
  (permissionSearch q).run_of_barren kept_children (checkPermission_of_kept h) (fun _ _ => rfl)
    (checkInheritedPermission_of_kept h) ⟨t, rfl⟩

theorem treeHasPermission_of_kept (h : ∀ t g, keep t g = true → g.permission ≠ p)
    (t : OrganizationPermission) : treeHasPermission (t.only keep) p = false :=
  (anywhereSearch p).run_of_barren kept_children (fun _ _ => rfl) (checkPermission_of_kept h)
    (fun _ _ => rfl) ⟨t, rfl⟩

theorem groupView_of_kept {item : SimpleOffice}
    (h : ∀ t g, keep t g = true → g.permission ∉ SampleAuthorizer.resolveRequirements)
    (t : OrganizationPermission) : groupView item (t.only keep) = false := by
  have hseed : ((t.only keep).permissions.any fun g =>
      SampleAuthorizer.resolveRequirements.contains g.permission) = false := by
    rw [only_permissions, List.any_eq_false]
    intro g hg
    rw [List.contains_iff_mem]
    exact h t g (List.mem_filter.mp hg).2
  unfold groupView
  rw [hseed, List.any_eq_false]
  intro p hp
  rw [checkForPermission_of_kept]
  · exact Bool.false_ne_true
  · rintro t' g hkeep rfl
    exact h t' g hkeep hp

end

/-! What the four checks need. -/

theorem needs_of_any {required : List PermissionType} {answer : OrganizationPermission → Bool}
    (h : ∀ keep : OrganizationPermission → Permission → Bool,
      (∀ t g, keep t g = true → g.permission ∉ required) →
      ∀ t : OrganizationPermission, answer (t.only keep) = false) :
    Needs required fun f => f.any answer := by
  intro types f hrequired
  show (f.map _).any answer = false
  rw [List.any_map, List.any_eq_false]
  intro t _
  have hnone := h (fun _ g => types g.permission) (by
    intro _ g hkeep hg
    rw [hrequired _ hg] at hkeep
    cases hkeep) t
  rw [Function.comp_apply, hnone]
  exact Bool.false_ne_true

theorem needs_hasPermission (globals : List PermissionType) (q : PermissionToCheck) :
    Needs [q.permission] fun f => hasPermission q (some (userOf globals f)) :=
  needs_of_any fun _ h => checkForPermission_of_kept fun t g hkeep =>
    mt List.mem_singleton.mpr (h t g hkeep)

theorem needs_hasPermissionAnywhere (p : PermissionType) :
    Needs [p] fun f => hasPermissionAnywhere f p := by
  simp only [hasPermissionAnywhere_eq]
  exact needs_of_any fun _ h => treeHasPermission_of_kept fun t g hkeep =>
    mt List.mem_singleton.mpr (h t g hkeep)

theorem needs_hasAnyPermissionForOrganizationType (T : OrganizationType) :
    Needs PermissionType.all fun f => hasAnyPermissionForOrganizationType f T := by
  simp only [hasAnyPermissionForOrganizationType_eq]
  apply needs_of_any
  intro keep h t
  have hempty : ∀ n, Kept keep n → n.permissions = [] := by
    rintro n ⟨t', rfl⟩
    rw [only_permissions, List.filter_eq_nil_iff]
    exact fun g _ hkeep => h t' g hkeep (PermissionType.mem_all g.permission)
  apply (levelSearch T).run_of_barren kept_children _ _ (fun _ _ => rfl) ⟨t, rfl⟩
  · intro n hn
    simp only [levelSearch, hempty n hn, List.length_nil]
    rfl
  · intro n hn
    simp only [levelSearch, hempty n hn, List.any_nil]

theorem needs_groups (item : SimpleOffice) :
    Needs SampleAuthorizer.resolveRequirements fun f => f.any (groupView item) :=
  needs_of_any fun _ h => groupView_of_kept h

/-- What is left of the decisions after some permissions were revoked: none about
them, and all about the others. The gate stays open if the entries of one type that
is left open it, and so does the view of an office, except that a global
administrator keeps it in any case. -/
structure Revoked (globals : List PermissionType) (revoked : List PermissionType)
    (f : List OrganizationPermission) : Prop where
  atOrganization : ∀ q, hasPermission q (some (userOf globals (revoke revoked f))) =
    (!revoked.contains q.permission && hasPermission q (some (userOf globals f)))
  anywhere : ∀ p, hasPermissionAnywhere (revoke revoked f) p =
    (!revoked.contains p && hasPermissionAnywhere f p)
  atLevel : ∀ T, hasAnyPermissionForOrganizationType (revoke revoked f) T = true ↔
    ∃ p, p ∉ revoked ∧ hasAnyPermissionForOrganizationType (holding (· == p) f) T = true
  view : ∀ item, SampleAuthorizer.canView (userOf globals (revoke revoked f)) item = true ↔
    .proAdmin ∈ globals ∨ ∃ p, p ∉ revoked ∧
      SampleAuthorizer.canView (userOf [] (holding (· == p) f)) item = true
  viewLost : (∀ p ∈ SampleAuthorizer.resolveRequirements, p ∈ revoked) → ∀ item,
    SampleAuthorizer.canView (userOf globals (revoke revoked f)) item =
      globals.any fun p => p == .proAdmin
  viewKept : (∀ p ∈ SampleAuthorizer.resolveRequirements, p ∉ revoked) → ∀ item,
    SampleAuthorizer.canView (userOf globals (revoke revoked f)) item =
      SampleAuthorizer.canView (userOf globals f) item

/-- Revoking permissions takes away what is granted by them, wherever they were
held, and nothing else. -/
theorem decisions_revoked (globals revoked : List PermissionType)
    (f : List OrganizationPermission) : Revoked globals revoked f where
  atOrganization q :=
    (needs_hasPermission globals q).revoke_eq (fun keep f => hasPermission_split keep f globals q)
      revoked f
  anywhere p :=
    (needs_hasPermissionAnywhere p).revoke_eq (fun keep f => hasPermissionAnywhere_split keep f p)
      revoked f
  atLevel T := by
    have hsplit : FromEntries fun f => hasAnyPermissionForOrganizationType f T :=
      fun keep f => hasAnyPermissionForOrganizationType_split keep f T
    exact hsplit.revoke_iff (needs_hasAnyPermissionForOrganizationType T) revoked f
  view item := by
    have hsplit : FromEntries fun f => f.any (groupView item) :=
      fun keep f => groups_split keep f item
    have hgroups := hsplit.revoke_iff (needs_groups item) revoked f
    have hopen : ∀ f, SampleAuthorizer.canView (userOf [] f) item = f.any (groupView item) :=
      fun f => canView_eq_any [] f item
    simp only [hopen]
    rw [canView_eq_any, Bool.or_eq_true, hgroups]
    simp
  viewLost h item := by
    have hlost : (revoke revoked f).any (groupView item) = false := (needs_groups item).lost h f
    rw [canView_eq_any, hlost, Bool.or_false]
  viewKept h item := by
    have hkept : (revoke revoked f).any (groupView item) = f.any (groupView item) :=
      (needs_groups item).kept (fun keep f => groups_split keep f item) h f
    rw [canView_eq_any, canView_eq_any, hkept]

end Ovipro.HasPermission
