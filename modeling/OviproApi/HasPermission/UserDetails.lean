import Mathlib.Order.WellFounded

/-! The user token: a forest of organization units with the permissions that
are applied to each of them. -/

namespace Ovipro.HasPermission

inductive OrganizationType
  | customerGroup
  | customer
  | office
  deriving DecidableEq, Repr

/-- `inherit` reaches the descendants of the unit it is applied to, `none` is
valid for that unit only. -/
inductive InheritanceType
  | inherit
  | none
  deriving DecidableEq, Repr

inductive PermissionType
  | proSelfViewer
  | proViewer
  | proProperty
  | proShowingEdit
  | proExtraVisibilityPurchases
  | proUsermanagement
  | proCompanyinfomanagement
  | proCcInvoicing
  | proMarketplaces
  | proPurchase
  | proReports
  | proCustomers
  | proAssignments
  | proNewspaperads
  | proInvoicingView
  | proInvoicingEdit
  | proPropertyPresentations
  | proMultimediaEdit
  | proAdmin
  deriving DecidableEq, Repr

structure Permission where
  inheritanceType : InheritanceType
  permission : PermissionType
  deriving DecidableEq, Repr

structure OrganizationPermission where
  id : String
  level : OrganizationType
  children : List OrganizationPermission
  permissions : List Permission

structure OrganizationPermissionTree where
  customerGroups : List OrganizationPermission

structure UserDetails where
  organizationPermissionTree : OrganizationPermissionTree
  globalPermissions : List PermissionType

namespace OrganizationPermission

theorem sizeOf_child_lt {t c : OrganizationPermission} (hc : c ∈ t.children) :
    sizeOf c < sizeOf t := by
  have hlt := List.sizeOf_lt_of_mem hc
  cases t
  simp only [mk.sizeOf_spec] at hlt ⊢
  omega

theorem child_wellFounded :
    WellFounded fun c t : OrganizationPermission => c ∈ t.children :=
  Subrelation.wf (fun hc => sizeOf_child_lt hc) (measure sizeOf).wf

end OrganizationPermission
end Ovipro.HasPermission
