import OviproApi.Descent
import OviproApi.HasPermission.UserDetails

/-! The permission checks over a user's forest, and the search that each of
them performs. -/

namespace Ovipro.HasPermission

structure PermissionToCheck where
  level : OrganizationType
  organizationId : String
  permission : PermissionType

def checkPermission (permissions : List Permission) (permissionToFind : PermissionType) : Bool :=
  permissions.any fun p => p.permission == permissionToFind

def checkInheritedPermission (permissions : List Permission)
    (permissionToFind : PermissionType) : Bool :=
  permissions.any fun p => p.permission == permissionToFind && p.inheritanceType == .inherit

-- `children` is an array here and hence truthy, so the branch on it is always taken.
mutual

def checkForPermission (permissionToCheck : PermissionToCheck) :
    OrganizationPermission → Bool → Bool
  | ⟨id, level, children, permissions⟩, permissionInParent =>
    let orgInCurrentLevel :=
      level == permissionToCheck.level && id == permissionToCheck.organizationId
    if orgInCurrentLevel then
      permissionInParent || checkPermission permissions permissionToCheck.permission
    else
      (findChild permissionToCheck children
        (permissionInParent ||
          checkInheritedPermission permissions permissionToCheck.permission)).isSome

def findChild (permissionToCheck : PermissionToCheck) :
    List OrganizationPermission → Bool → Option OrganizationPermission
  | [], _ => none
  | child :: children, permissionInParent =>
    if checkForPermission permissionToCheck child permissionInParent then some child
    else findChild permissionToCheck children permissionInParent

end

/-- A missing user, `null` or `undefined`, is `none`. -/
def hasPermission (permission : PermissionToCheck) : Option UserDetails → Bool
  | none => false
  | some user =>
    user.organizationPermissionTree.customerGroups.any fun cg =>
      checkForPermission permission cg false

mutual

def hasPermissionAnywhere : List OrganizationPermission → PermissionType → Bool
  | [], _ => false
  | permissionTree :: rest, permission =>
    treeHasPermission permissionTree permission || hasPermissionAnywhere rest permission

def treeHasPermission : OrganizationPermission → PermissionType → Bool
  | ⟨_, _, children, permissions⟩, permission =>
    (permissions.any fun it => it.permission == permission) ||
      hasPermissionAnywhere children permission

end

mutual

def hasAnyPermissionForOrganizationType :
    List OrganizationPermission → OrganizationType → Bool
  | [], _ => false
  | permissionTree :: rest, organizationType =>
    treeHasAnyPermission permissionTree organizationType ||
      hasAnyPermissionForOrganizationType rest organizationType

def treeHasAnyPermission : OrganizationPermission → OrganizationType → Bool
  | ⟨_, level, children, permissions⟩, organizationType =>
    (level == organizationType && permissions.length != 0) ||
      (level != organizationType &&
        permissions.any fun permission => permission.inheritanceType == .inherit) ||
      (level != organizationType &&
        hasAnyPermissionForOrganizationType children organizationType)

end

def OrganizationPermission.isOrganization (t : OrganizationPermission)
    (permissionToCheck : PermissionToCheck) : Bool :=
  t.level == permissionToCheck.level && t.id == permissionToCheck.organizationId

theorem findChild_eq (q : PermissionToCheck) (children : List OrganizationPermission)
    (flag : Bool) :
    findChild q children flag = children.find? fun c => checkForPermission q c flag := by
  induction children with
  | nil => rfl
  | cons c cs ih =>
    rw [findChild, List.find?_cons, ih]
    cases checkForPermission q c flag <;> rfl

theorem checkForPermission_eq (q : PermissionToCheck) (flag : Bool)
    (t : OrganizationPermission) :
    checkForPermission q t flag =
      if t.isOrganization q then flag || checkPermission t.permissions q.permission
      else t.children.any fun c =>
        checkForPermission q c (flag || checkInheritedPermission t.permissions q.permission) := by
  obtain ⟨id, level, children, permissions⟩ := t
  rw [checkForPermission, findChild_eq, List.isSome_find?]
  rfl

theorem checkForPermission_of_found {q : PermissionToCheck} {t : OrganizationPermission}
    (h : t.isOrganization q = true) (flag : Bool) :
    checkForPermission q t flag = (flag || checkPermission t.permissions q.permission) := by
  rw [checkForPermission_eq, if_pos h]

theorem checkForPermission_of_passed {q : PermissionToCheck} {t : OrganizationPermission}
    (h : t.isOrganization q = false) (flag : Bool) :
    checkForPermission q t flag = t.children.any fun c =>
      checkForPermission q c (flag || checkInheritedPermission t.permissions q.permission) := by
  rw [checkForPermission_eq, if_neg (by simp [h])]

theorem hasPermissionAnywhere_eq (forest : List OrganizationPermission) (p : PermissionType) :
    hasPermissionAnywhere forest p = forest.any fun t => treeHasPermission t p := by
  induction forest with
  | nil => rfl
  | cons t ts ih => rw [hasPermissionAnywhere, List.any_cons, ih]

theorem treeHasPermission_eq (t : OrganizationPermission) (p : PermissionType) :
    treeHasPermission t p =
      (checkPermission t.permissions p || t.children.any fun c => treeHasPermission c p) := by
  cases t
  rw [treeHasPermission, hasPermissionAnywhere_eq]
  rfl

theorem hasAnyPermissionForOrganizationType_eq (forest : List OrganizationPermission)
    (T : OrganizationType) :
    hasAnyPermissionForOrganizationType forest T = forest.any fun t => treeHasAnyPermission t T := by
  induction forest with
  | nil => rfl
  | cons t ts ih => rw [hasAnyPermissionForOrganizationType, List.any_cons, ih]

theorem treeHasAnyPermission_eq (t : OrganizationPermission) (T : OrganizationType) :
    treeHasAnyPermission t T =
      if t.level == T then t.permissions.length != 0
      else (t.permissions.any fun g => g.inheritanceType == .inherit) ||
        t.children.any fun c => treeHasAnyPermission c T := by
  cases t
  rw [treeHasAnyPermission, hasAnyPermissionForOrganizationType_eq]
  split
  · simp [bne, *]
  · simp [bne, *]

def permissionSearch (q : PermissionToCheck) : Descent.Search OrganizationPermission where
  children := OrganizationPermission.children
  wf := OrganizationPermission.child_wellFounded
  stop t := t.isOrganization q
  hit flag t := flag || checkPermission t.permissions q.permission
  accept _ := false
  carry t := checkInheritedPermission t.permissions q.permission
  run flag t := checkForPermission q t flag
  run_eq flag t := by rw [checkForPermission_eq, Bool.false_or]

def anywhereSearch (p : PermissionType) : Descent.Search OrganizationPermission where
  children := OrganizationPermission.children
  wf := OrganizationPermission.child_wellFounded
  stop _ := false
  hit _ _ := false
  accept t := checkPermission t.permissions p
  carry _ := false
  run _ t := treeHasPermission t p
  run_eq _ t := treeHasPermission_eq t p

def levelSearch (T : OrganizationType) : Descent.Search OrganizationPermission where
  children := OrganizationPermission.children
  wf := OrganizationPermission.child_wellFounded
  stop t := t.level == T
  hit _ t := t.permissions.length != 0
  accept t := t.permissions.any fun g => g.inheritanceType == .inherit
  carry _ := false
  run _ t := treeHasAnyPermission t T
  run_eq _ t := treeHasAnyPermission_eq t T

end Ovipro.HasPermission
