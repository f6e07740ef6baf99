import OviproApi.Refinement

/-! Parsed forests in which units lack their children. The search for one
organization takes a missing array for an empty one; the other two searches
raise once they have to look below such a unit. -/

namespace Ovipro.Runtime
open Ecma HasPermission

/-- A unit as it is parsed; a `leaf` has no field for its children. -/
inductive ParsedOrganization
  | leaf (id : String) (level : OrganizationType) (permissions : List Permission)
  | node (id : String) (level : OrganizationType) (children : List ParsedOrganization)
      (permissions : List Permission)

namespace ParsedOrganization

def level : ParsedOrganization → OrganizationType
  | leaf _ level _ => level
  | node _ level _ _ => level

def permissions : ParsedOrganization → List Permission
  | leaf _ _ permissions => permissions
  | node _ _ _ permissions => permissions

def lacksChildren : ParsedOrganization → Bool
  | leaf .. => true
  | node .. => false

end ParsedOrganization

mutual

/-- Every missing array of children replaced by an empty one. -/
def filled : ParsedOrganization → OrganizationPermission
  | .leaf id level permissions => ⟨id, level, [], permissions⟩
  | .node id level children permissions => ⟨id, level, filledForest children, permissions⟩

def filledForest : List ParsedOrganization → List OrganizationPermission
  | [] => []
  | t :: ts => filled t :: filledForest ts

end

mutual

def ParsedAs (v : Value) : ParsedOrganization → Prop
  | .leaf id level permissions =>
    v.prop "id" = .ok (.str id) ∧ v.prop "level" = .ok (.str (levelText level)) ∧
      (∃ ps, v.prop "permissions" = .ok (.arr ps) ∧ ps.Forall₂ PermissionReadsAs permissions) ∧
      v.prop "children" = .ok .undefined
  | .node id level children permissions =>
    v.prop "id" = .ok (.str id) ∧ v.prop "level" = .ok (.str (levelText level)) ∧
      (∃ ps, v.prop "permissions" = .ok (.arr ps) ∧ ps.Forall₂ PermissionReadsAs permissions) ∧
      ∃ cs, v.prop "children" = .ok (.arr cs) ∧ ParsedForestAs cs children

def ParsedForestAs : List Value → List ParsedOrganization → Prop
  | [], [] => True
  | v :: vs, t :: ts => ParsedAs v t ∧ ParsedForestAs vs ts
  | _, _ => False

end

structure UserParsedAs (v : Value) (groups : List Value) (forest : List ParsedOrganization) :
    Prop where
  tree : ∃ tree, v.prop "organizationPermissionTree" = .ok tree ∧
    tree.prop "customerGroups" = .ok (.arr groups)
  forest : ParsedForestAs groups forest

theorem ParsedAs.head {v : Value} {t : ParsedOrganization} (h : ParsedAs v t) :
    ∃ ps, HeadReadsAs v (filled t) ps := by
  cases t with
  | leaf id level permissions =>
    obtain ⟨hid, hlevel, ⟨ps, hps, hentries⟩, -⟩ := h
    exact ⟨ps, hid, hlevel, hps, hentries⟩
  | node id level children permissions =>
    obtain ⟨hid, hlevel, ⟨ps, hps, hentries⟩, -⟩ := h
    exact ⟨ps, hid, hlevel, hps, hentries⟩

/-! The guarded search. -/

mutual

theorem checkForPermission_parsedAs (t : ParsedOrganization) {v : Value} (h : ParsedAs v t)
    (q : HasPermission.PermissionToCheck) (flag : Bool) :
    checkForPermission (queryText q) v flag =
      .ok (HasPermission.checkForPermission q (filled t) flag) := by
  obtain ⟨ps, hhead⟩ := h.head
  apply checkForPermission_of_children hhead
  cases t with
  | leaf id level permissions =>
    obtain ⟨-, -, -, hnone⟩ := h
    exact Or.inl ⟨hnone, rfl⟩
  | node id level children permissions =>
    obtain ⟨-, -, -, cs, hcs, hforest⟩ := h
    exact Or.inr ⟨cs, hcs, forest_parsedAs children hforest q⟩

theorem forest_parsedAs (ts : List ParsedOrganization) {vs : List Value}
    (h : ParsedForestAs vs ts) (q : HasPermission.PermissionToCheck) (flag : Bool) :
    vs.Forall₂ (fun v t => v.IsObject ∧ checkForPermission (queryText q) v flag =
      .ok (HasPermission.checkForPermission q t flag)) (filledForest ts) := by
  match vs, ts with
  | [], [] => exact .nil
  | v :: vs, t :: ts =>
    obtain ⟨ps, hhead⟩ := h.1.head
    have hcheck := checkForPermission_parsedAs t h.1 q flag
    have htail := forest_parsedAs ts h.2 q flag
    exact .cons ⟨hhead.isObject, hcheck⟩ htail
  | [], _ :: _ => exact h.elim
  | _ :: _, [] => exact h.elim

end

theorem UserParsedAs.truthy {v : Value} {groups : List Value} {forest : List ParsedOrganization}
    (h : UserParsedAs v groups forest) :
    v.truthy = true ∧ ∃ tree, v.prop "organizationPermissionTree" = .ok tree ∧
      tree.truthy = true ∧ tree.prop "customerGroups" = .ok (.arr groups) := by
  obtain ⟨tree, htree, hgroups⟩ := h.tree
  have hobject : tree.IsObject := Value.isObject_of_prop_ne hgroups (by simp)
  have hne : tree ≠ .undefined := by
    intro hundefined
    rw [hundefined] at hgroups
    cases hgroups
  have huser : v.IsObject := Value.isObject_of_prop_ne htree hne
  exact ⟨huser.truthy, tree, htree, hobject.truthy, hgroups⟩

/-- The search for one organization returns on every forest. -/
theorem hasPermission_parsedAs {v : Value} {groups : List Value}
    {forest : List ParsedOrganization} (h : UserParsedAs v groups forest)
    (q : HasPermission.PermissionToCheck) (globals : List PermissionType) :
    hasPermission (queryText q) v =
      .ok (.bool (HasPermission.hasPermission q (some ⟨⟨filledForest forest⟩, globals⟩))) := by
  obtain ⟨huser, tree, htree, htruthy, hgroups⟩ := h.truthy
  have hany := anyM_eq_any ((forest_parsedAs forest h.forest q false).imp fun _ _ hread => hread.2)
  unfold hasPermission
  rw [huser, htree]
  simp only [bind, Except.bind, htruthy, hgroups]
  show (Except.bind (groups.anyM _) _) = _
  rw [hany]
  rfl

/-! The searches without a guard, in the order in which they reach the units. -/

section
variable (answer : ParsedOrganization → Option Bool)

mutual

/-- The units in the order of the search, as if none of them answered with
`true`; below a unit that answers nothing is reached. -/
def walk : ParsedOrganization → List ParsedOrganization
  | .leaf id level permissions => [.leaf id level permissions]
  | .node id level children permissions =>
    .node id level children permissions ::
      if (answer (.node id level children permissions)).isSome then [] else walkForest children

def walkForest : List ParsedOrganization → List ParsedOrganization
  | [] => []
  | t :: ts => walk t ++ walkForest ts

end

def outcome : List ParsedOrganization → Except Error Bool
  | [] => pure false
  | t :: ts =>
    match answer t with
    | some true => pure true
    | some false => outcome ts
    | none =>
      if t.lacksChildren then throw (.typeError "Cannot read properties of undefined")
      else outcome ts

def accepts (t : ParsedOrganization) : Bool := answer t == some true

/-- Before a unit that lacks its children and does not answer, another one
answers with `true`. -/
def AnsweredInTime (ts : List ParsedOrganization) : Prop :=
  ∀ before t after, ts = before ++ t :: after → answer t = none → t.lacksChildren = true →
    ∃ earlier ∈ before, answer earlier = some true

variable {answer}

theorem outcome_append (ts us : List ParsedOrganization) :
    outcome answer (ts ++ us) =
      (outcome answer ts >>= fun found => if found then pure true else outcome answer us) := by
  induction ts with
  | nil => rfl
  | cons t ts ih =>
    rw [List.cons_append, outcome, outcome, ih]
    rcases answer t with _ | _ | _
    · cases t.lacksChildren <;> rfl
    · rfl
    · rfl

mutual

theorem searchUnit_parsedAs {answerValue : Value → Except Error (Option Bool)}
    (hanswer : ∀ v t, ParsedAs v t → answerValue v = .ok (answer t)) (t : ParsedOrganization)
    {v : Value} (h : ParsedAs v t) :
    searchUnit answerValue v = outcome answer (walk answer t) := by
  rw [searchUnit_eq, hanswer v t h]
  cases t with
  | leaf id level permissions =>
    obtain ⟨-, -, -, hnone⟩ := h
    rw [hnone, walk, outcome]
    rcases answer (.leaf id level permissions) with _ | _ | _
    · rfl
    · rfl
    · rfl
  | node id level children permissions =>
    obtain ⟨-, -, -, cs, hcs, hforest⟩ := h
    have hbelow := someUnit_parsedAs hanswer children hforest
    rw [hcs, walk, outcome]
    rcases answer (.node id level children permissions) with _ | _ | _
    · exact hbelow
    · rfl
    · rfl

theorem someUnit_parsedAs {answerValue : Value → Except Error (Option Bool)}
    (hanswer : ∀ v t, ParsedAs v t → answerValue v = .ok (answer t)) (ts : List ParsedOrganization)
    {vs : List Value} (h : ParsedForestAs vs ts) :
    someUnit answerValue vs = outcome answer (walkForest answer ts) := by
  match vs, ts with
  | [], [] =>
    rw [someUnit, walkForest]
    rfl
  | v :: vs, t :: ts =>
    have hhead := searchUnit_parsedAs hanswer t h.1
    have htail := someUnit_parsedAs hanswer ts h.2
    rw [someUnit, walkForest, outcome_append, hhead, htail]
  | [], _ :: _ => exact h.elim
  | _ :: _, [] => exact h.elim

end

theorem AnsweredInTime.tail {t : ParsedOrganization} {ts : List ParsedOrganization}
    (h : AnsweredInTime answer (t :: ts)) (ht : answer t ≠ some true) :
    AnsweredInTime answer ts := by
  intro before u after hsplit hnone hlacks
  obtain ⟨earlier, hmem, haccepted⟩ := h (t :: before) u after (congrArg (t :: ·) hsplit) hnone hlacks
  rcases List.mem_cons.mp hmem with rfl | hmem
  · exact absurd haccepted ht
  · exact ⟨earlier, hmem, haccepted⟩

theorem AnsweredInTime.cons {t : ParsedOrganization} {ts : List ParsedOrganization}
    (ht : answer t = none → t.lacksChildren = false)
    (h : AnsweredInTime answer ts) : AnsweredInTime answer (t :: ts) := by
  intro before u after hsplit hnone hlacks
  rcases List.cons_eq_append_iff.mp hsplit with ⟨rfl, hhead⟩ | ⟨before', rfl, htail⟩
  · cases hhead
    rw [ht hnone] at hlacks
    cases hlacks
  · obtain ⟨earlier, hmem, haccepted⟩ := h before' u after htail hnone hlacks
    exact ⟨earlier, List.mem_cons_of_mem _ hmem, haccepted⟩

/-- A search raises exactly where a unit is not answered for in time. -/
theorem outcome_ok_iff (ts : List ParsedOrganization) :
    outcome answer ts = .ok (ts.any (accepts answer)) ↔ AnsweredInTime answer ts := by
  -- along the walk: an answer ends it, a unit that raises needs one before it
  induction ts with
  | nil =>
    refine iff_of_true rfl ?_
    intro before t after hsplit
    simp at hsplit
  | cons t ts ih =>
    rw [outcome, List.any_cons, accepts]
    cases ht : answer t with
    | none =>
      cases hlacks : t.lacksChildren with
      | true =>
        refine iff_of_false (by simp) ?_
        intro h
        obtain ⟨earlier, hmem, -⟩ := h [] t ts rfl ht hlacks
        exact List.not_mem_nil hmem
      | false =>
        have hne : answer t ≠ some true := by simp [ht]
        exact ih.trans ⟨.cons fun _ => hlacks, fun h => h.tail hne⟩
    | some found =>
      cases found with
      | true =>
        refine iff_of_true rfl ?_
        intro before u after hsplit hnone hlacks
        rcases List.cons_eq_append_iff.mp hsplit with ⟨rfl, hhead⟩ | ⟨before', rfl, htail⟩
        · cases hhead
          rw [hnone] at ht
          cases ht
        · exact ⟨t, List.mem_cons_self .., ht⟩
      | false =>
        have hne : answer t ≠ some true := by simp [ht]
        have hsome : answer t = none → t.lacksChildren = false := by simp [ht]
        exact ih.trans ⟨.cons hsome, fun h => h.tail hne⟩

/-! What the walk says about the filled forest. -/

/-- A search of a typed forest that asks every unit for its answer first. -/
structure Follows (answer : ParsedOrganization → Option Bool) (f : OrganizationPermission → Bool) :
    Prop where
  answered : ∀ t found, answer t = some found → f (filled t) = found
  passed : ∀ t, answer t = none → f (filled t) = (filled t).children.any f

mutual

theorem any_walk {f : OrganizationPermission → Bool} (hf : Follows answer f)
    (t : ParsedOrganization) : (walk answer t).any (accepts answer) = f (filled t) := by
  cases t with
  | leaf id level permissions =>
    rw [walk, List.any_cons, List.any_nil, Bool.or_false, accepts]
    cases ht : answer (.leaf id level permissions) with
    | none => rw [hf.passed _ ht, filled]; rfl
    | some found => rw [hf.answered _ _ ht]; cases found <;> rfl
  | node id level children permissions =>
    rw [walk, List.any_cons, accepts]
    cases ht : answer (.node id level children permissions) with
    | none =>
      rw [hf.passed _ ht, filled, ← any_walkForest hf children]
      rfl
    | some found => rw [hf.answered _ _ ht]; cases found <;> rfl

theorem any_walkForest {f : OrganizationPermission → Bool} (hf : Follows answer f)
    (ts : List ParsedOrganization) :
    (walkForest answer ts).any (accepts answer) = (filledForest ts).any f := by
  match ts with
  | [] => rfl
  | t :: ts =>
    have hhead := any_walk hf t
    have htail := any_walkForest hf ts
    rw [walkForest, filledForest, List.any_append, List.any_cons, hhead, htail]

end

/-- A search of a parsed forest returns what the typed one finds in the filled
forest exactly where every unit is answered for in time. -/
theorem someUnit_ok_iff {answerValue : Value → Except Error (Option Bool)}
    {f : OrganizationPermission → Bool}
    (hanswer : ∀ v t, ParsedAs v t → answerValue v = .ok (answer t)) (hf : Follows answer f)
    {vs : List Value} {ts : List ParsedOrganization} (h : ParsedForestAs vs ts) :
    someUnit answerValue vs = .ok ((filledForest ts).any f) ↔
      AnsweredInTime answer (walkForest answer ts) := by
  rw [someUnit_parsedAs hanswer ts h, ← any_walkForest hf, outcome_ok_iff]

end

/-! The two searches, on the values and on the units that these are parsed as. -/

def heldIn (p : PermissionType) (t : ParsedOrganization) : Option Bool :=
  if HasPermission.checkPermission t.permissions p then some true else none

def openIn (T : OrganizationType) (t : ParsedOrganization) : Option Bool :=
  if t.level == T then some (t.permissions.length != 0)
  else if t.permissions.any fun g => g.inheritanceType == .inherit then some true
  else none

theorem filled_level (t : ParsedOrganization) : (filled t).level = t.level := by
  cases t <;> rfl

theorem filled_permissions (t : ParsedOrganization) : (filled t).permissions = t.permissions := by
  cases t <;> rfl

theorem heldAt_parsedAs (p : PermissionType) (v : Value) (t : ParsedOrganization)
    (h : ParsedAs v t) : heldAt (.str (permissionText p)) v = .ok (heldIn p t) := by
  obtain ⟨ps, hhead⟩ := h.head
  have hheld := checkPermission_readsAs hhead.entries p
  rw [filled_permissions] at hheld
  unfold heldAt heldIn
  rw [hhead.permissions]
  show (checkPermission (.arr ps) (.str (permissionText p)) >>= _) = _
  rw [hheld]
  cases HasPermission.checkPermission t.permissions p <;> rfl

theorem inheritsAny_readsAs {ps : List Value} {permissions : List Permission}
    (h : ps.Forall₂ PermissionReadsAs permissions) :
    inheritsAny (.arr ps) = .ok (permissions.any fun g => g.inheritanceType == .inherit) := by
  refine anyM_eq_any (h.imp fun v g hread => ?_)
  rw [hread.inheritanceType, ← inheritanceText_beq]
  rfl

theorem openAt_parsedAs (T : OrganizationType) (v : Value) (t : ParsedOrganization)
    (h : ParsedAs v t) : openAt (.str (levelText T)) v = .ok (openIn T t) := by
  obtain ⟨ps, hhead⟩ := h.head
  have hlength := hhead.entries.length_eq
  have hinherits := inheritsAny_readsAs hhead.entries
  rw [filled_permissions] at hlength hinherits
  unfold openAt openIn
  rw [hhead.level, hhead.permissions, filled_level, ← levelText_beq, ← hlength]
  show (if levelText t.level == levelText T then _ else _) = _
  cases levelText t.level == levelText T with
  | true => rfl
  | false =>
    show (inheritsAny (.arr ps) >>= _) = _
    rw [hinherits]
    cases t.permissions.any fun g => g.inheritanceType == .inherit <;> rfl

theorem follows_treeHasPermission (p : PermissionType) :
    Follows (heldIn p) fun t => treeHasPermission t p where
  answered t found h := by
    unfold heldIn at h
    rw [treeHasPermission_eq, filled_permissions]
    split at h
    · rename_i hheld
      rw [hheld]
      exact Option.some.inj h
    · cases h
  passed t h := by
    unfold heldIn at h
    split at h
    · cases h
    · rename_i hheld
      rw [treeHasPermission_eq, filled_permissions, Bool.eq_false_iff.mpr hheld, Bool.false_or]

theorem follows_treeHasAnyPermission (T : OrganizationType) :
    Follows (openIn T) fun t => treeHasAnyPermission t T where
  answered t found h := by
    unfold openIn at h
    rw [treeHasAnyPermission_eq, filled_level, filled_permissions]
    split at h
    · rename_i hlevel
      rw [if_pos hlevel]
      exact Option.some.inj h
    · rename_i hlevel
      rw [if_neg hlevel]
      split at h
      · rename_i hinherits
        rw [hinherits, Bool.true_or]
        exact Option.some.inj h
      · cases h
  passed t h := by
    unfold openIn at h
    rw [treeHasAnyPermission_eq, filled_level, filled_permissions]
    split at h
    · cases h
    · rename_i hlevel
      split at h
      · cases h
      · rename_i hinherits
        rw [if_neg hlevel, Bool.eq_false_iff.mpr hinherits, Bool.false_or]

/-- All three checks return, and what they return on the filled forest. -/
def Tolerant (v : Value) (groups : List Value) (user : UserDetails)
    (q : HasPermission.PermissionToCheck) (p : PermissionType) (T : OrganizationType) : Prop :=
  hasPermission (queryText q) v = .ok (.bool (HasPermission.hasPermission q (some user))) ∧
    hasPermissionAnywhere (.arr groups) (.str (permissionText p)) =
      .ok (HasPermission.hasPermissionAnywhere user.organizationPermissionTree.customerGroups p) ∧
    hasAnyPermissionForOrganizationType (.arr groups) (.str (levelText T)) =
      .ok (HasPermission.hasAnyPermissionForOrganizationType
        user.organizationPermissionTree.customerGroups T)

/-- Missing arrays of children are tolerated exactly where both searches have
their answer before they have to look below one. -/
theorem tolerant_iff (v : Value) (groups : List Value) (forest : List ParsedOrganization)
    (globals : List PermissionType) (q : HasPermission.PermissionToCheck) (p : PermissionType)
    (T : OrganizationType) (h : UserParsedAs v groups forest) :
    Tolerant v groups ⟨⟨filledForest forest⟩, globals⟩ q p T ↔
      AnsweredInTime (heldIn p) (walkForest (heldIn p) forest) ∧
        AnsweredInTime (openIn T) (walkForest (openIn T) forest) := by
  have hguarded := hasPermission_parsedAs h q globals
  have hanywhere := someUnit_ok_iff (heldAt_parsedAs p) (follows_treeHasPermission p) h.forest
  have hlevel := someUnit_ok_iff (openAt_parsedAs T) (follows_treeHasAnyPermission T) h.forest
  rw [← hanywhere, ← hlevel, ← hasPermissionAnywhere_eq, ← hasAnyPermissionForOrganizationType_eq]
  exact ⟨fun htolerant => htolerant.2, fun hsearches => ⟨hguarded, hsearches⟩⟩

/-- A customer group without the field for its children. -/
def childlessGroup : Value :=
  .obj [("id", .str "group"), ("level", .str "CUSTOMER_GROUP"), ("permissions", .arr [])]

def childlessUser : Value :=
  .obj [("organizationPermissionTree", .obj [("customerGroups", .arr [childlessGroup])])]

theorem childlessUser_parsedAs :
    UserParsedAs childlessUser [childlessGroup] [.leaf "group" .customerGroup []] where
  tree := ⟨_, rfl, rfl⟩
  forest := ⟨⟨rfl, rfl, ⟨[], rfl, .nil⟩, rfl⟩, trivial⟩

theorem tolerant_iff_childlessUser :
    Tolerant childlessUser [childlessGroup] ⟨⟨[⟨"group", .customerGroup, [], []⟩]⟩, []⟩
        ⟨.office, "office", .proAdmin⟩ .proAdmin .customerGroup ↔
      AnsweredInTime (heldIn .proAdmin) [.leaf "group" .customerGroup []] ∧
        AnsweredInTime (openIn .customerGroup) [.leaf "group" .customerGroup []] :=
  tolerant_iff childlessUser [childlessGroup] [.leaf "group" .customerGroup []] [] _ _ _
    childlessUser_parsedAs

theorem childlessUser_not_tolerated :
    ¬ ∀ (v : Value) (groups : List Value) (forest : List ParsedOrganization)
      (globals : List PermissionType) (q : HasPermission.PermissionToCheck) (p : PermissionType)
      (T : OrganizationType), UserParsedAs v groups forest →
        Tolerant v groups ⟨⟨filledForest forest⟩, globals⟩ q p T := by
  intro h
  obtain ⟨-, hanywhere, -⟩ := h childlessUser [childlessGroup] [.leaf "group" .customerGroup []] []
    ⟨.office, "office", .proAdmin⟩ .proAdmin .customerGroup childlessUser_parsedAs
  have hheld : ParsedForestAs [childlessGroup] [.leaf "group" .customerGroup []] :=
    childlessUser_parsedAs.forest
  have hsearch := someUnit_parsedAs (heldAt_parsedAs .proAdmin) _ hheld
  have hraises : hasPermissionAnywhere (.arr [childlessGroup]) (.str (permissionText .proAdmin)) =
      outcome (heldIn .proAdmin) [.leaf "group" .customerGroup []] := hsearch
  rw [hraises] at hanywhere
  cases hanywhere

end Ovipro.Runtime
