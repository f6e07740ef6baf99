import OviproApi.Ecma.Value
import OviproApi.SampleAuthorizer

/-! The permission checks and the authorizer as they run on a user that was
parsed without validation. Every read of a property may raise, and reading the
members in the order of the source decides whether it does. -/

namespace Ovipro.Runtime
open Ecma

structure PermissionToCheck where
  level : Value
  organizationId : Value
  permission : Value

def checkPermission (permissions permissionToFind : Value) : Except Error Bool := do
  let permissions ← permissions.elements
  permissions.anyM fun p => do
    return (← p.prop "permission").strictEq permissionToFind

def checkInheritedPermission (permissions permissionToFind : Value) : Except Error Bool := do
  let permissions ← permissions.elements
  permissions.anyM fun p => do
    if (← p.prop "permission").strictEq permissionToFind then
      return (← p.prop "inheritanceType").strictEq (.str "INHERIT")
    else return false

def orgInCurrentLevel (permissionToCheck : PermissionToCheck) (current : Value) :
    Except Error Bool := do
  if (← current.prop "level").strictEq permissionToCheck.level then
    return (← current.prop "id").strictEq permissionToCheck.organizationId
  else return false

/-- The flag that is handed down: permissions are not read once it is set. -/
def inheritedFlag (permissionToCheck : PermissionToCheck) (current : Value)
    (permissionInParent : Bool) : Except Error Bool := do
  if permissionInParent then return true
  else checkInheritedPermission (← current.prop "permissions") permissionToCheck.permission

mutual

def checkForPermission (permissionToCheck : PermissionToCheck) (current : Value)
    (permissionInParent : Bool) : Except Error Bool := do
  if ← orgInCurrentLevel permissionToCheck current then
    if permissionInParent then return true
    else checkPermission (← current.prop "permissions") permissionToCheck.permission
  else
    match _h : current.prop "children" with
    | .error e => throw e
    | .ok (.arr children) =>
      return (← findChild permissionToCheck current permissionInParent children).truthy
    | .ok children =>
      if children.truthy then throw (.typeError "current.children.find is not a function")
      else return false
termination_by sizeOf current
decreasing_by exact Value.sizeOf_prop_lt _h

/-- The first child with the permission, `undefined` if there is none. -/
def findChild (permissionToCheck : PermissionToCheck) (current : Value) (permissionInParent : Bool)
    (children : List Value) : Except Error Value := do
  match children with
  | [] => return .undefined
  | child :: rest =>
    let inherited ← inheritedFlag permissionToCheck current permissionInParent
    if ← checkForPermission permissionToCheck child inherited then return child
    else findChild permissionToCheck current permissionInParent rest
termination_by sizeOf children

end

/-- A falsy user has no permissions, and a falsy tree is returned itself. -/
def hasPermission (permission : PermissionToCheck) (user : Value) : Except Error Value := do
  if !user.truthy then return .bool false
  else
    let tree ← user.prop "organizationPermissionTree"
    if !tree.truthy then return tree
    else
      let customerGroups ← (← tree.prop "customerGroups").elements
      return .bool (← customerGroups.anyM fun cg => checkForPermission permission cg false)

mutual

/-- Whether a unit answers with `true`, or some unit below one that does not
answer. Here a missing array of children is not guarded against. -/
def someUnit (answer : Value → Except Error (Option Bool)) (units : List Value) :
    Except Error Bool := do
  match units with
  | [] => return false
  | unit :: rest =>
    if ← searchUnit answer unit then return true else someUnit answer rest
termination_by sizeOf units

def searchUnit (answer : Value → Except Error (Option Bool)) (unit : Value) :
    Except Error Bool := do
  match ← answer unit with
  | some found => return found
  | none =>
    match _h : unit.prop "children" >>= Value.elements with
    | .error e => throw e
    | .ok children => someUnit answer children
termination_by sizeOf unit
decreasing_by exact Value.sizeOf_elements_lt _h

end

def heldAt (permission permissionTree : Value) : Except Error (Option Bool) := do
  if ← checkPermission (← permissionTree.prop "permissions") permission then return some true
  else return none

def hasPermissionAnywhere (organizationPermission permission : Value) : Except Error Bool := do
  someUnit (heldAt permission) (← organizationPermission.elements)

def inheritsAny (permissions : Value) : Except Error Bool := do
  let permissions ← permissions.elements
  permissions.anyM fun permission => do
    return (← permission.prop "inheritanceType").strictEq (.str "INHERIT")

-- At the wanted level none of the alternatives after the first one can hold.
def openAt (organizationType permissionTree : Value) : Except Error (Option Bool) := do
  if (← permissionTree.prop "level").strictEq organizationType then
    return some (← (← permissionTree.prop "permissions").hasLength)
  else if ← inheritsAny (← permissionTree.prop "permissions") then return some true
  else return none

def hasAnyPermissionForOrganizationType (organizationPermission organizationType : Value) :
    Except Error Bool := do
  someUnit (openAt organizationType) (← organizationPermission.elements)

def includes (values : List Value) (v : Value) : Bool := values.any fun w => w.strictEq v

def resolveRequirements : List Value := [.str "PRO_PROPERTY", .str "PRO_ADMIN"]

def isGlobalAdmin (user : Value) : Except Error Bool := do
  let globalPermissions ← (← user.prop "globalPermissions").elements
  globalPermissions.anyM fun permission => return permission.strictEq (.str "PRO_ADMIN")

def holdsAny (anyRequiredPermission : List Value) (customerGroup : Value) : Except Error Bool := do
  let permissions ← (← customerGroup.prop "permissions").elements
  permissions.anyM fun permissionLocal => do
    return includes anyRequiredPermission (← permissionLocal.prop "permission")

def officeQuery (publicId permission : Value) : PermissionToCheck :=
  { level := .str "OFFICE", organizationId := publicId, permission := permission }

def groupGrants (item : Value) (anyRequiredPermission : List Value) (customerGroup permission : Value) :
    Except Error Bool := do
  let publicId ← item.prop "publicId"
  -- the seed is computed anew for every required permission, and may raise each time
  let permissionInParent ← holdsAny anyRequiredPermission customerGroup
  checkForPermission (officeQuery publicId permission) customerGroup permissionInParent

def hasRequirements (user item : Value) (anyRequiredPermission : List Value) :
    Except Error Bool := do
  let globalAdmin ← isGlobalAdmin user
  if globalAdmin && includes anyRequiredPermission (.str "PRO_ADMIN") then return true
  else
    let tree ← user.prop "organizationPermissionTree"
    let customerGroups ← (← tree.prop "customerGroups").elements
    customerGroups.anyM fun customerGroup =>
      anyRequiredPermission.anyM (groupGrants item anyRequiredPermission customerGroup)

/-- `SampleAuthorizer.canView` of a parsed user and an office that was read
from the database. -/
def canView (user item : Value) : Except Error Bool :=
  hasRequirements user item resolveRequirements

theorem canView_congr {item item' : Value} (user : Value)
    (h : item.prop "publicId" = item'.prop "publicId") :
    canView user item = canView user item' := by
  have hgrants : groupGrants item = groupGrants item' := by
    funext anyRequiredPermission customerGroup permission
    rw [groupGrants, groupGrants, h]
  rw [canView, canView, hasRequirements, hasRequirements, hgrants]

/-- The recursion without the evidence that it terminates. -/
theorem checkForPermission_eq (q : PermissionToCheck) (current : Value) (flag : Bool) :
    checkForPermission q current flag = (do
      if ← orgInCurrentLevel q current then
        if flag then return true
        else checkPermission (← current.prop "permissions") q.permission
      else
        match current.prop "children" with
        | .error e => throw e
        | .ok (.arr children) => return (← findChild q current flag children).truthy
        | .ok children =>
          if children.truthy then throw (.typeError "current.children.find is not a function")
          else return false) := by
  rw [checkForPermission]
  congr 1
  funext found
  split
  · rfl
  · split
    · rename_i h
      rw [h]
    · rename_i h
      rw [h]
    · rename_i children hne h
      rw [h]
      cases children with
      | arr cs => exact absurd rfl (hne cs)
      | _ => rfl

theorem searchUnit_eq (answer : Value → Except Error (Option Bool)) (unit : Value) :
    searchUnit answer unit = (do
      match ← answer unit with
      | some found => return found
      | none => someUnit answer (← (← unit.prop "children").elements)) := by
  rw [searchUnit]
  congr 1
  funext found
  cases found with
  | some found => rfl
  | none =>
    show _ = (unit.prop "children" >>= fun children => children.elements >>= someUnit answer)
    rw [← bind_assoc]
    split
    · contradiction
    · split
      · rename_i h
        rw [h]
        rfl
      · rename_i h
        rw [h]
        rfl

/-! A user of the declared shape never makes the authorizer raise. -/

/-- A unit with a list of permissions; its children may be missing. -/
inductive UnitShape : Value → Prop
  | leaf {unit : Value} {permissions : List Value}
      (hpermissions : unit.prop "permissions" = .ok (.arr permissions))
      (hp : ∀ p ∈ permissions, p.IsObject) (hchildren : unit.prop "children" = .ok .undefined) :
      UnitShape unit
  | node {unit : Value} {permissions children : List Value}
      (hpermissions : unit.prop "permissions" = .ok (.arr permissions))
      (hp : ∀ p ∈ permissions, p.IsObject) (hchildren : unit.prop "children" = .ok (.arr children))
      (hc : ∀ c ∈ children, UnitShape c) : UnitShape unit

structure UserShape (user : Value) : Prop where
  globalPermissions : ∃ permissions, user.prop "globalPermissions" = .ok (.arr permissions)
  tree : ∃ tree groups, user.prop "organizationPermissionTree" = .ok tree ∧
    tree.prop "customerGroups" = .ok (.arr groups) ∧ ∀ group ∈ groups, UnitShape group

theorem UnitShape.permissions {unit : Value} (h : UnitShape unit) :
    ∃ permissions, unit.prop "permissions" = .ok (.arr permissions) ∧
      ∀ p ∈ permissions, p.IsObject := by
  cases h with
  | leaf hpermissions hp _ => exact ⟨_, hpermissions, hp⟩
  | node hpermissions hp _ _ => exact ⟨_, hpermissions, hp⟩

theorem UnitShape.isObject {unit : Value} (h : UnitShape unit) : unit.IsObject := by
  obtain ⟨permissions, hpermissions, -⟩ := h.permissions
  exact Value.isObject_of_prop_ne hpermissions (by simp)

theorem orgInCurrentLevel_returns {unit : Value} (h : unit.IsObject) (q : PermissionToCheck) :
    ∃ b, orgInCurrentLevel q unit = .ok b := by
  have hid := bind_returns (h.prop "id") fun id =>
    ⟨id.strictEq q.organizationId, rfl⟩
  exact bind_returns (h.prop "level") fun _ => ite_returns hid ⟨false, rfl⟩

theorem checkPermission_returns {permissions : List Value} (h : ∀ p ∈ permissions, p.IsObject)
    (p : Value) : ∃ b, checkPermission (.arr permissions) p = .ok b := by
  apply anyM_returns
  intro g hg
  exact bind_returns ((h g hg).prop "permission") fun permission => ⟨permission.strictEq p, rfl⟩

theorem checkInheritedPermission_returns {permissions : List Value}
    (h : ∀ p ∈ permissions, p.IsObject) (p : Value) :
    ∃ b, checkInheritedPermission (.arr permissions) p = .ok b := by
  apply anyM_returns
  intro g hg
  have hinherited := bind_returns ((h g hg).prop "inheritanceType") fun inheritanceType =>
    ⟨inheritanceType.strictEq (.str "INHERIT"), rfl⟩
  exact bind_returns ((h g hg).prop "permission") fun _ => ite_returns hinherited ⟨false, rfl⟩

/-- The check of a unit below which every search returns. -/
theorem checkForPermission_returns_of {q : PermissionToCheck} {unit : Value} {flag : Bool}
    (hshape : UnitShape unit) (hchildren : ∀ children, unit.prop "children" = .ok (.arr children) →
      ∃ found, findChild q unit flag children = .ok found) :
    ∃ b, checkForPermission q unit flag = .ok b := by
  obtain ⟨permissions, hpermissions, hp⟩ := hshape.permissions
  have horg := orgInCurrentLevel_returns hshape.isObject q
  have hheld : ∃ b, (unit.prop "permissions" >>= fun permissions =>
      checkPermission permissions q.permission) = .ok b :=
    bind_returns_of_eq hpermissions (checkPermission_returns hp q.permission)
  rw [checkForPermission_eq]
  refine bind_returns horg fun _ => ite_returns (ite_returns ⟨true, rfl⟩ hheld) ?_
  cases hshape with
  | leaf _ _ hnone => exact ⟨false, by rw [hnone]; rfl⟩
  | node _ _ hsome _ =>
    rw [hsome]
    exact bind_returns (hchildren _ hsome) fun found => ⟨found.truthy, rfl⟩

theorem inheritedFlag_returns {unit : Value} (h : UnitShape unit) (q : PermissionToCheck)
    (flag : Bool) : ∃ b, inheritedFlag q unit flag = .ok b := by
  obtain ⟨permissions, hpermissions, hp⟩ := h.permissions
  have hinherited := checkInheritedPermission_returns hp q.permission
  exact ite_returns ⟨true, rfl⟩ (bind_returns_of_eq hpermissions hinherited)

theorem findChild_returns {q : PermissionToCheck} {unit : Value} {flag : Bool}
    {children : List Value} (hflag : ∃ b, inheritedFlag q unit flag = .ok b)
    (h : ∀ c ∈ children, ∀ inherited, ∃ b, checkForPermission q c inherited = .ok b) :
    ∃ found, findChild q unit flag children = .ok found := by
  induction children with
  | nil => exact ⟨.undefined, by rw [findChild]; rfl⟩
  | cons c cs ih =>
    have hhead := h c (List.mem_cons_self ..)
    have htail := ih fun d hd => h d (List.mem_cons_of_mem _ hd)
    rw [findChild]
    exact bind_returns hflag fun inherited =>
      bind_returns (hhead inherited) fun _ => ite_returns ⟨c, rfl⟩ htail

theorem checkForPermission_returns {unit : Value} (h : UnitShape unit) (q : PermissionToCheck)
    (flag : Bool) : ∃ b, checkForPermission q unit flag = .ok b := by
  induction h generalizing flag with
  | leaf hpermissions hp hnone =>
    apply checkForPermission_returns_of (.leaf hpermissions hp hnone)
    intro children hsome
    rw [hnone] at hsome
    cases hsome
  | node hpermissions hp hsome hc ih =>
    have hshape := UnitShape.node hpermissions hp hsome hc
    apply checkForPermission_returns_of hshape
    intro children hchildren
    rw [hsome] at hchildren
    cases hchildren
    exact findChild_returns (inheritedFlag_returns hshape q flag) ih

theorem holdsAny_returns {unit : Value} (h : UnitShape unit) (required : List Value) :
    ∃ b, holdsAny required unit = .ok b := by
  obtain ⟨permissions, hpermissions, hp⟩ := h.permissions
  unfold holdsAny
  rw [hpermissions]
  apply anyM_returns
  intro g hg
  exact bind_returns ((hp g hg).prop "permission") fun permission =>
    ⟨includes required permission, rfl⟩

theorem groupGrants_returns {item unit : Value} (h : UnitShape unit) (hitem : item.IsObject)
    (required : List Value) (permission : Value) :
    ∃ b, groupGrants item required unit permission = .ok b := by
  have hseed := holdsAny_returns h required
  exact bind_returns (hitem.prop "publicId") fun publicId => bind_returns hseed fun seed =>
    checkForPermission_returns h (officeQuery publicId permission) seed

theorem isGlobalAdmin_returns {user : Value} (h : UserShape user) :
    ∃ b, isGlobalAdmin user = .ok b := by
  obtain ⟨globals, hglobals⟩ := h.globalPermissions
  unfold isGlobalAdmin
  rw [hglobals]
  exact anyM_returns fun permission _ => ⟨permission.strictEq (.str "PRO_ADMIN"), rfl⟩

theorem canView_returns {user item : Value} (h : UserShape user) (hitem : item.IsObject) :
    ∃ b, canView user item = .ok b := by
  obtain ⟨tree, groups, htree, hgroups, hshape⟩ := h.tree
  have hany : ∃ b, (groups.anyM fun group =>
      resolveRequirements.anyM (groupGrants item resolveRequirements group)) = .ok b :=
    anyM_returns fun group hmem => anyM_returns fun permission _ =>
      groupGrants_returns (hshape group hmem) hitem resolveRequirements permission
  refine bind_returns (isGlobalAdmin_returns h) fun _ => ite_returns ⟨true, rfl⟩ ?_
  exact bind_returns_of_eq htree (bind_returns_of_eq hgroups hany)

end Ovipro.Runtime
