import OviproApi.SampleAuthorizer

/-! Authorization is monotone in the permission forest, and blind to the order
and the multiplicity of its entries. -/

namespace Ovipro.HasPermission
open Descent Authorizer

def Permission.Le (g g' : Permission) : Prop :=
  g.permission = g'.permission ∧ (g.inheritanceType = .inherit → g'.inheritanceType = .inherit)

mutual

/-- The same unit with at least the permissions and, up to this order, at least
the children. -/
def OrganizationPermission.Le : OrganizationPermission → OrganizationPermission → Prop
  | ⟨id, level, children, permissions⟩, t' =>
    level = t'.level ∧ id = t'.id ∧ (∀ g ∈ permissions, ∃ g' ∈ t'.permissions, g.Le g') ∧
      ForestLe children t'.children

def ForestLe : List OrganizationPermission → List OrganizationPermission → Prop
  | [], _ => True
  | t :: ts, forest' => (∃ t' ∈ forest', t.Le t') ∧ ForestLe ts forest'

end

theorem Permission.Le.refl (g : Permission) : g.Le g := ⟨rfl, id⟩

theorem Permission.Le.trans {g g' g'' : Permission} (h : g.Le g') (h' : g'.Le g'') : g.Le g'' :=
  ⟨h.1.trans h'.1, h'.2 ∘ h.2⟩

theorem forestLe_iff {f f' : List OrganizationPermission} :
    ForestLe f f' ↔ ∀ t ∈ f, ∃ t' ∈ f', t.Le t' := by
  induction f with
  | nil => simp [ForestLe]
  | cons t ts ih => simp only [ForestLe, ih, List.forall_mem_cons]

theorem OrganizationPermission.le_iff {t t' : OrganizationPermission} :
    t.Le t' ↔ t.level = t'.level ∧ t.id = t'.id ∧
      (∀ g ∈ t.permissions, ∃ g' ∈ t'.permissions, g.Le g') ∧
      ForestLe t.children t'.children := by
  cases t
  rw [OrganizationPermission.Le]

theorem ForestLe.of_subset {f f' : List OrganizationPermission} (h : ∀ t ∈ f, t ∈ f')
    (hrefl : ∀ t ∈ f, t.Le t) : ForestLe f f' :=
  forestLe_iff.mpr fun t ht => ⟨t, h t ht, hrefl t ht⟩

theorem OrganizationPermission.Le.refl (t : OrganizationPermission) : t.Le t := by
  induction t using OrganizationPermission.child_wellFounded.induction with
  | _ t ih =>
    have hchildren : ForestLe t.children t.children :=
      ForestLe.of_subset (fun _ hc => hc) ih
    exact le_iff.mpr ⟨rfl, rfl, fun g hg => ⟨g, hg, Permission.Le.refl g⟩, hchildren⟩

theorem ForestLe.refl (f : List OrganizationPermission) : ForestLe f f :=
  ForestLe.of_subset (fun _ ht => ht) fun t _ => OrganizationPermission.Le.refl t

theorem OrganizationPermission.Le.trans {t t' t'' : OrganizationPermission} (h : t.Le t')
    (h' : t'.Le t'') : t.Le t'' := by
  induction t using OrganizationPermission.child_wellFounded.induction generalizing t' t'' with
  | _ t ih =>
    obtain ⟨hlevel, hid, hperms, hchildren⟩ := le_iff.mp h
    obtain ⟨hlevel', hid', hperms', hchildren'⟩ := le_iff.mp h'
    refine le_iff.mpr ⟨hlevel.trans hlevel', hid.trans hid', ?_, forestLe_iff.mpr ?_⟩
    · intro g hg
      obtain ⟨g', hg', hle⟩ := hperms g hg
      obtain ⟨g'', hg'', hle'⟩ := hperms' g' hg'
      exact ⟨g'', hg'', hle.trans hle'⟩
    · intro c hc
      obtain ⟨c', hc', hle⟩ := forestLe_iff.mp hchildren c hc
      obtain ⟨c'', hc'', hle'⟩ := forestLe_iff.mp hchildren' c' hc'
      exact ⟨c'', hc'', ih c hc hle hle'⟩

theorem ForestLe.trans {f f' f'' : List OrganizationPermission} (h : ForestLe f f')
    (h' : ForestLe f' f'') : ForestLe f f'' := by
  apply forestLe_iff.mpr
  intro t ht
  obtain ⟨t', ht', hle⟩ := forestLe_iff.mp h t ht
  obtain ⟨t'', ht'', hle'⟩ := forestLe_iff.mp h' t' ht'
  exact ⟨t'', ht'', hle.trans hle'⟩

/-! Each of the three searches is monotone along `Le`. -/

theorem checkPermission_mono {t t' : OrganizationPermission} (h : t.Le t') (p : PermissionType)
    (hp : checkPermission t.permissions p = true) : checkPermission t'.permissions p = true := by
  rw [checkPermission_iff] at hp ⊢
  obtain ⟨g, hg, rfl⟩ := hp
  obtain ⟨g', hg', hle⟩ := (OrganizationPermission.le_iff.mp h).2.2.1 g hg
  exact ⟨g', hg', hle.1.symm⟩

theorem checkInheritedPermission_mono {t t' : OrganizationPermission} (h : t.Le t')
    (p : PermissionType) (hp : checkInheritedPermission t.permissions p = true) :
    checkInheritedPermission t'.permissions p = true := by
  rw [checkInheritedPermission_iff] at hp ⊢
  obtain ⟨g, hg, rfl, hinherit⟩ := hp
  obtain ⟨g', hg', hle⟩ := (OrganizationPermission.le_iff.mp h).2.2.1 g hg
  exact ⟨g', hg', hle.1.symm, hle.2 hinherit⟩

theorem isOrganization_eq_of_le {t t' : OrganizationPermission} (h : t.Le t')
    (q : PermissionToCheck) : t.isOrganization q = t'.isOrganization q := by
  obtain ⟨hlevel, hid, -, -⟩ := OrganizationPermission.le_iff.mp h
  rw [OrganizationPermission.isOrganization, hlevel, hid, OrganizationPermission.isOrganization]

theorem children_of_le {t t' : OrganizationPermission} (h : t.Le t') :
    ∀ c ∈ t.children, ∃ c' ∈ t'.children, c.Le c' :=
  forestLe_iff.mp (OrganizationPermission.le_iff.mp h).2.2.2

theorem permissionSearch_simulation (q : PermissionToCheck) :
    (permissionSearch q).Simulation OrganizationPermission.Le where
  stop h := isOrganization_eq_of_le h q
  hit h hflag hhit := by
    simp only [permissionSearch, Bool.or_eq_true] at hhit ⊢
    exact hhit.imp hflag (checkPermission_mono h q.permission)
  accept _ := id
  carry h := checkInheritedPermission_mono h q.permission
  children := children_of_le

theorem anywhereSearch_simulation (p : PermissionType) :
    (anywhereSearch p).Simulation OrganizationPermission.Le where
  stop _ := rfl
  hit _ _ := id
  accept h := checkPermission_mono h p
  carry _ := id
  children := children_of_le

theorem levelSearch_simulation (T : OrganizationType) :
    (levelSearch T).Simulation OrganizationPermission.Le where
  stop h := by simp only [levelSearch, (OrganizationPermission.le_iff.mp h).1]
  hit {t t'} _ _ h _ hhit := by
    have hne : t.permissions ≠ [] := by simpa [levelSearch] using hhit
    obtain ⟨g, hg⟩ := List.exists_mem_of_ne_nil _ hne
    obtain ⟨g', hg', -⟩ := (OrganizationPermission.le_iff.mp h).2.2.1 g hg
    simpa [levelSearch] using List.ne_nil_of_mem hg'
  accept {t t'} h hacc := by
    simp only [levelSearch, List.any_eq_true, beq_iff_eq] at hacc ⊢
    obtain ⟨g, hg, hinherit⟩ := hacc
    obtain ⟨g', hg', hle⟩ := (OrganizationPermission.le_iff.mp h).2.2.1 g hg
    exact ⟨g', hg', hle.2 hinherit⟩
  carry _ := id
  children := children_of_le

def userOf (globals : List PermissionType) (forest : List OrganizationPermission) : UserDetails :=
  ⟨⟨forest⟩, globals⟩

/-- Whatever is granted on the first forest is granted on the second. -/
structure GrantsAtMost (globals : List PermissionType) (f f' : List OrganizationPermission) :
    Prop where
  atOrganization : ∀ q, hasPermission q (some (userOf globals f)) = true →
    hasPermission q (some (userOf globals f')) = true
  anywhere : ∀ p, hasPermissionAnywhere f p = true → hasPermissionAnywhere f' p = true
  atLevel : ∀ T, hasAnyPermissionForOrganizationType f T = true →
    hasAnyPermissionForOrganizationType f' T = true
  view : ∀ item, SampleAuthorizer.canView (userOf globals f) item = true →
    SampleAuthorizer.canView (userOf globals f') item = true

theorem canView_userOf {globals : List PermissionType} {f : List OrganizationPermission}
    {item : SimpleOffice} :
    SampleAuthorizer.canView (userOf globals f) item = true ↔ .proAdmin ∈ globals ∨
      ∃ cg ∈ f, ∃ p ∈ SampleAuthorizer.resolveRequirements,
        (permissionSearch (SampleAuthorizer.officeQuery item p)).run
          (cg.permissions.any fun g => SampleAuthorizer.resolveRequirements.contains g.permission)
          cg = true := by
  have hrun : ∀ cg p flag, (permissionSearch (SampleAuthorizer.officeQuery item p)).run flag cg =
      checkForPermission (SampleAuthorizer.officeQuery item p) cg flag := fun _ _ _ => rfl
  simp only [SampleAuthorizer.canView_iff, hrun, checkForPermission_iff, SampleAuthorizer.seed_iff]
  rfl

theorem seed_mono {t t' : OrganizationPermission} (h : t.Le t')
    (hseed : SampleAuthorizer.HoldsRequired t) : SampleAuthorizer.HoldsRequired t' := by
  obtain ⟨g, hg, hreq⟩ := hseed
  obtain ⟨g', hg', hle⟩ := (OrganizationPermission.le_iff.mp h).2.2.1 g hg
  exact ⟨g', hg', hle.1 ▸ hreq⟩

theorem grantsAtMost_of_forestLe (globals : List PermissionType)
    {f f' : List OrganizationPermission} (h : ForestLe f f') : GrantsAtMost globals f f' where
  atOrganization q := (permissionSearch_simulation q).any_mono false (forestLe_iff.mp h)
  anywhere p := by
    rw [hasPermissionAnywhere_eq, hasPermissionAnywhere_eq]
    exact (anywhereSearch_simulation p).any_mono false (forestLe_iff.mp h)
  atLevel T := by
    rw [hasAnyPermissionForOrganizationType_eq, hasAnyPermissionForOrganizationType_eq]
    exact (levelSearch_simulation T).any_mono false (forestLe_iff.mp h)
  view item := by
    rw [canView_userOf, canView_userOf]
    refine Or.imp_right ?_
    intro hview
    rcases hview with ⟨cg, hcg, p, hp, hrun⟩
    obtain ⟨cg', hcg', hle⟩ := forestLe_iff.mp h cg hcg
    refine ⟨cg', hcg', p, hp, (permissionSearch_simulation _).run_mono hle ?_ hrun⟩
    rw [SampleAuthorizer.seed_iff, SampleAuthorizer.seed_iff]
    exact seed_mono hle

/-- Forests that differ in the order and the multiplicity of their trees, of
the children of their units or of the permissions of their units. -/
inductive Rearranged : List OrganizationPermission → List OrganizationPermission → Prop
  | reorder {f f'} (h : f.Perm f') : Rearranged f f'
  | duplicate (t f) : Rearranged (t :: f) (t :: t :: f)
  | permissions {id level children permissions permissions'} {f}
      (h : ∀ g, g ∈ permissions ↔ g ∈ permissions') :
      Rearranged (⟨id, level, children, permissions⟩ :: f)
        (⟨id, level, children, permissions'⟩ :: f)
  | children {id level children children' permissions} {f} (h : Rearranged children children') :
      Rearranged (⟨id, level, children, permissions⟩ :: f)
        (⟨id, level, children', permissions⟩ :: f)
  | symm {f f'} (h : Rearranged f f') : Rearranged f' f
  | trans {f f' f''} (h : Rearranged f f') (h' : Rearranged f' f'') : Rearranged f f''

theorem forestLe_cons {t t' : OrganizationPermission} {f : List OrganizationPermission}
    (h : t.Le t') : ForestLe (t :: f) (t' :: f) := by
  apply forestLe_iff.mpr
  intro c hc
  rcases List.mem_cons.mp hc with rfl | hc
  · exact ⟨t', List.mem_cons_self .., h⟩
  · exact ⟨c, List.mem_cons_of_mem _ hc, OrganizationPermission.Le.refl c⟩

theorem ForestLe.of_mem {f f' : List OrganizationPermission} (h : ∀ t ∈ f, t ∈ f') :
    ForestLe f f' :=
  ForestLe.of_subset h fun t _ => OrganizationPermission.Le.refl t

theorem Rearranged.forestLe {f f' : List OrganizationPermission} (h : Rearranged f f') :
    ForestLe f f' ∧ ForestLe f' f := by
  induction h with
  | reorder h =>
    have hle := ForestLe.of_mem fun _ => h.mem_iff.mp
    have hge := ForestLe.of_mem fun _ => h.mem_iff.mpr
    exact ⟨hle, hge⟩
  | duplicate t f => exact ⟨ForestLe.of_mem (by simp), ForestLe.of_mem (by simp)⟩
  | @permissions id level children permissions permissions' f h =>
    have hle : ∀ {ps ps' : List Permission}, (∀ g ∈ ps, g ∈ ps') →
        OrganizationPermission.Le ⟨id, level, children, ps⟩ ⟨id, level, children, ps'⟩ :=
      fun hsub => OrganizationPermission.le_iff.mpr
        ⟨rfl, rfl, fun g hg => ⟨g, hsub g hg, Permission.Le.refl g⟩, ForestLe.refl _⟩
    exact ⟨forestLe_cons (hle fun g => (h g).mp), forestLe_cons (hle fun g => (h g).mpr)⟩
  | @children id level children children' permissions f _ ih =>
    have hle : ∀ {cs cs' : List OrganizationPermission}, ForestLe cs cs' →
        OrganizationPermission.Le ⟨id, level, cs, permissions⟩ ⟨id, level, cs', permissions⟩ :=
      fun hcs => OrganizationPermission.le_iff.mpr
        ⟨rfl, rfl, fun g hg => ⟨g, hg, Permission.Le.refl g⟩, hcs⟩
    exact ⟨forestLe_cons (hle ih.1), forestLe_cons (hle ih.2)⟩
  | symm _ ih => exact ih.symm
  | trans _ _ ih ih' => exact ⟨ih.1.trans ih'.1, ih'.2.trans ih.2⟩

structure SameDecisions (globals : List PermissionType) (f f' : List OrganizationPermission) :
    Prop where
  atOrganization : ∀ q, hasPermission q (some (userOf globals f)) =
    hasPermission q (some (userOf globals f'))
  anywhere : ∀ p, hasPermissionAnywhere f p = hasPermissionAnywhere f' p
  atLevel : ∀ T, hasAnyPermissionForOrganizationType f T = hasAnyPermissionForOrganizationType f' T
  view : ∀ item, SampleAuthorizer.canView (userOf globals f) item =
    SampleAuthorizer.canView (userOf globals f') item

theorem GrantsAtMost.antisymm {globals : List PermissionType} {f f' : List OrganizationPermission}
    (h : GrantsAtMost globals f f') (h' : GrantsAtMost globals f' f) :
    SameDecisions globals f f' where
  atOrganization q := Bool.eq_iff_iff.mpr ⟨h.atOrganization q, h'.atOrganization q⟩
  anywhere p := Bool.eq_iff_iff.mpr ⟨h.anywhere p, h'.anywhere p⟩
  atLevel T := Bool.eq_iff_iff.mpr ⟨h.atLevel T, h'.atLevel T⟩
  view item := Bool.eq_iff_iff.mpr ⟨h.view item, h'.view item⟩

/-- A larger forest grants whatever a smaller one grants, and a rearranged
forest grants the same. -/
theorem decisions_monotone (globals : List PermissionType) (f f' : List OrganizationPermission) :
    (ForestLe f f' → GrantsAtMost globals f f') ∧
      (Rearranged f f' → SameDecisions globals f f') := by
  refine ⟨grantsAtMost_of_forestLe globals, fun h => ?_⟩
  have hle := h.forestLe
  exact (grantsAtMost_of_forestLe globals hle.1).antisymm (grantsAtMost_of_forestLe globals hle.2)

/-- The units of a group with a customer, which has entries of its own. -/
def groupOf (offices : List OrganizationPermission) (permissions : List Permission) :
    OrganizationPermission :=
  ⟨"group", .customerGroup, [⟨"customer", .customer, offices, permissions⟩], []⟩

def officeForest : List OrganizationPermission :=
  [groupOf [⟨"office", .office, [], [⟨.none, .proViewer⟩]⟩] [⟨.none, .proProperty⟩]]

/-- An entry of the customer is upgraded, and there are more offices, entries and groups. -/
def upgradedForest : List OrganizationPermission :=
  [⟨"other", .customerGroup, [], []⟩,
    groupOf [⟨"second", .office, [], []⟩,
        ⟨"office", .office, [], [⟨.none, .proReports⟩, ⟨.none, .proViewer⟩]⟩]
      [⟨.inherit, .proProperty⟩]]

/-- The groups and the offices change places, and an entry of an office is there twice. -/
def rearrangedForest : List OrganizationPermission :=
  [groupOf [⟨"office", .office, [], [⟨.none, .proViewer⟩, ⟨.none, .proReports⟩, ⟨.none, .proViewer⟩]⟩,
        ⟨"second", .office, [], []⟩]
      [⟨.inherit, .proProperty⟩],
    ⟨"other", .customerGroup, [], []⟩]

theorem decisions_monotone_upgraded :
    GrantsAtMost [] officeForest upgradedForest ∧
      SameDecisions [] upgradedForest rearrangedForest := by
  refine ⟨(decisions_monotone _ _ _).1 ?_, (decisions_monotone _ _ _).2 ?_⟩
  · simp [ForestLe, OrganizationPermission.Le, Permission.Le, officeForest, upgradedForest, groupOf]
  · have hentries : ∀ g : Permission, g ∈ [⟨.none, .proReports⟩, ⟨.none, .proViewer⟩] ↔
        g ∈ [⟨.none, .proViewer⟩, ⟨.none, .proReports⟩, ⟨.none, .proViewer⟩] := by
      intro g
      simp only [List.mem_cons]
      tauto
    have hoffices : Rearranged [⟨"second", .office, [], []⟩, ⟨"office", .office, [], _⟩]
        [⟨"office", .office, [], _⟩, ⟨"second", .office, [], []⟩] :=
      (Rearranged.reorder (List.Perm.swap _ _ [])).trans (.permissions hentries)
    exact (Rearranged.reorder (List.Perm.swap _ _ [])).trans (.children (.children hoffices))

end Ovipro.HasPermission
