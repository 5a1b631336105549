import Rune.Core.Keyed

/-!
# The policy evaluator

`Authorize` goes through the listing of the users for the first one whose identifier or name
is the given subject, and then through the rules of the policies attached to that user. The
listing is in the order of the identifiers, so a user whose name is the identifier of another
user may stand before it and be judged in its place.
-/

namespace Rune.Authz

open Rune.Core

/-- A user and the names of their policies. -/
structure User where
  id : String
  name : String
  policies : List String
  deriving DecidableEq

/-- A grant of verbs on a resource in a namespace. -/
structure PolicyRule where
  resource : String
  verbs : List String
  ns : String

/-- A stored policy. -/
structure Policy where
  rules : List PolicyRule

/-- What the evaluator reads: the listing of the users, which may fail, and the policies that
can be read. -/
structure AuthStore where
  users : Except String (List User)
  policy : String → Option Policy

/-- The checks of one rule, in the order in which they are made. -/
def PolicyRule.matches (rule : PolicyRule) (resource verb ns : String) : Bool :=
  if rule.resource ≠ "*" ∧ rule.resource ≠ resource then false
  else if ¬ rule.verbs.any fun v => v = "*" ∨ v = verb then false
  else rule.ns = "" ∨ rule.ns = "*" ∨ rule.ns = ns

namespace AuthStore

/-- Some rule of a policy that can be read matches. -/
def permits (st : AuthStore) (policies : List String) (resource verb ns : String) : Bool :=
  policies.any fun pname =>
    match st.policy pname with
    | none => false
    | some p => p.rules.any (·.matches resource verb ns)

/-- `Authorize`. -/
def authorize (st : AuthStore) (subjectID resource verb ns : String) : Except String Bool :=
  match st.users with
  | .error err => .error err
  | .ok users =>
    match users.find? fun u => u.id = subjectID ∨ u.name = subjectID with
    | none => .ok false
    | some user =>
      if user.policies = [] then .ok false else .ok (st.permits user.policies resource verb ns)

end AuthStore

/-- The rule names the resource, the verb and the namespace, or leaves them open. -/
structure PolicyRule.Grants (rule : PolicyRule) (resource verb ns : String) : Prop where
  resource : rule.resource = resource ∨ rule.resource = "*"
  verb : ∃ v ∈ rule.verbs, v = verb ∨ v = "*"
  ns : rule.ns = "" ∨ rule.ns = "*" ∨ rule.ns = ns

/-- What the matching of a rule decides. -/
theorem PolicyRule.matches_iff {rule : PolicyRule} {resource verb ns : String} :
    rule.matches resource verb ns = true ↔ rule.Grants resource verb ns := by
  have hverbs : (rule.verbs.any fun v => decide (v = "*" ∨ v = verb)) = true ↔
      ∃ v ∈ rule.verbs, v = verb ∨ v = "*" := by
    simp only [List.any_eq_true, decide_eq_true_eq, or_comm]
  unfold PolicyRule.matches
  by_cases hresource : rule.resource ≠ "*" ∧ rule.resource ≠ resource
  · rw [if_pos hresource]
    refine iff_of_false Bool.false_ne_true ?_
    rintro ⟨hr, -, -⟩
    exact hr.elim hresource.2 hresource.1
  rw [if_neg hresource]
  by_cases hverb : (rule.verbs.any fun v => v = "*" ∨ v = verb) = true
  · rw [if_neg (not_not.2 hverb), decide_eq_true_iff]
    refine ⟨fun hns => ⟨?_, hverbs.1 hverb, hns⟩, PolicyRule.Grants.ns⟩
    by_contra hr
    rw [not_or] at hr
    exact hresource ⟨hr.2, hr.1⟩
  · rw [if_pos hverb]
    refine iff_of_false Bool.false_ne_true ?_
    rintro ⟨-, hv, -⟩
    exact hverb (hverbs.2 hv)

namespace AuthStore

variable {st st' : AuthStore} {users users' : List User} {u : User} {resource verb ns : String}

/-- Some rule of some policy grants it. -/
theorem permits_iff {policies : List String} :
    st.permits policies resource verb ns = true ↔ ∃ pname ∈ policies, ∃ p ∈ st.policy pname,
      ∃ rule ∈ p.rules, rule.Grants resource verb ns := by
  simp only [permits, List.any_eq_true]
  refine exists_congr fun pname => and_congr_right fun _ => ?_
  cases st.policy pname with
  | none => simp
  | some p => simp [PolicyRule.matches_iff]

/-- The user whose policies decide for `u`: the first one before `u` that has the identifier of
`u` as its name, and `u` itself if there is none. -/
def judged (users : List User) (u : User) : User :=
  ((users.takeWhile fun v => v ≠ u).find? fun v => v.name = u.id).getD u

/-- If a user before `u` has the identifier of `u` as its name, then the first of these has the
same policies attached as `u`. -/
def Unmistaken (users : List User) (u : User) : Prop :=
  ∀ v ∈ (users.takeWhile fun v => v ≠ u).find? fun v => v.name = u.id,
    ∀ pname, pname ∈ v.policies ↔ pname ∈ u.policies

theorem unmistaken_iff :
    Unmistaken users u ↔ ∀ pname, pname ∈ (judged users u).policies ↔ pname ∈ u.policies := by
  unfold Unmistaken judged
  cases (users.takeWhile fun v => v ≠ u).find? fun v => v.name = u.id <;> simp

/-- Whom the lookup finds. -/
theorem find_eq_judged (hids : DistinctKeys User.id users) (hu : u ∈ users) :
    users.find? (fun v => v.id = u.id ∨ v.name = u.id) = some (judged users u) := by
  induction users with
  | nil => cases hu
  | cons v users ih =>
    unfold judged
    by_cases hv : v = u
    · simp [hv]
    · have hmem : u ∈ users := (List.mem_cons.mp hu).resolve_left (Ne.symm hv)
      have hid : v.id ≠ u.id := fun h => hv (hids.eq_of_key List.mem_cons_self hu h)
      by_cases hname : v.name = u.id
      · simp [hv, hname]
      · simpa [hv, hid, hname, judged] using ih hids.of_cons hmem

/-- The policies of one user decide. -/
theorem authorize_eq (hst : st.users = .ok users) (hids : DistinctKeys User.id users)
    (hu : u ∈ users) : st.authorize u.id resource verb ns =
      .ok (st.permits (judged users u).policies resource verb ns) := by
  simp only [authorize, hst, find_eq_judged hids hu]
  split_ifs with hnone
  · rw [hnone]
    rfl
  · rfl

theorem permits_congr {policies policies' : List String}
    (hsame : ∀ pname, pname ∈ policies' ↔ pname ∈ policies)
    (h : ∀ pname ∈ policies, st'.policy pname = st.policy pname) :
    st'.permits policies' resource verb ns = st.permits policies resource verb ns := by
  rw [Bool.eq_iff_iff, permits_iff, permits_iff]
  refine exists_congr fun pname => ?_
  rw [hsame]
  refine and_congr_right fun hmem => ?_
  rw [h pname hmem]

/-- The subject is judged by its own policies: `Authorize` says yes exactly when a rule of a
readable policy attached to it grants the request. -/
def OwnPolicies (st : AuthStore) (u : User) : Prop :=
  ∀ resource verb ns, st.authorize u.id resource verb ns = .ok true ↔
    ∃ pname ∈ u.policies, ∃ p ∈ st.policy pname,
      ∃ rule ∈ p.rules, rule.Grants resource verb ns

/-- With one policy that grants everything, a user may do what it likes exactly if the policy is
attached to it. -/
theorem permits_only {users : Except String (List User)} {policies : List String} (pname : String) :
    permits ⟨users, fun p => if p = pname then some ⟨[⟨"*", ["*"], "*"⟩]⟩ else none⟩ policies
      resource verb ns = true ↔ pname ∈ policies := by
  rw [permits_iff]
  constructor
  · rintro ⟨q, hq, p, hp, -⟩
    obtain rfl : q = pname := by
      by_contra hne
      simp [hne] at hp
    exact hq
  · intro hmem
    exact ⟨pname, hmem, ⟨[⟨"*", ["*"], "*"⟩]⟩, if_pos rfl, _, List.mem_cons_self, .inr rfl,
      ⟨"*", List.mem_cons_self, .inr rfl⟩, .inr (.inl rfl)⟩

/-- Whatever the policies say, a subject is judged by its own ones exactly if no user before it
that is named like its identifier has others. Between two stores in which this is so and which
agree on the policies of the subject, the answers do not differ. -/
theorem authorize_own_policies (hids : DistinctKeys User.id users) (hu : u ∈ users) :
    ((∀ policy, OwnPolicies ⟨.ok users, policy⟩ u) ↔ Unmistaken users u) ∧
      (Unmistaken users u → ∀ users', DistinctKeys User.id users' → u ∈ users' →
        Unmistaken users' u → ∀ policy policy',
          (∀ pname ∈ u.policies, policy' pname = policy pname) →
          ∀ resource verb ns, authorize ⟨.ok users', policy'⟩ u.id resource verb ns =
            authorize ⟨.ok users, policy⟩ u.id resource verb ns) := by
  refine ⟨⟨fun hown => unmistaken_iff.mpr fun pname => ?_, fun h policy resource verb ns => ?_⟩, ?_⟩
  · have hiff := hown (fun p => if p = pname then some ⟨[⟨"*", ["*"], "*"⟩]⟩ else none) "" "" ""
    rwa [authorize_eq rfl hids hu, Except.ok.injEq, ← permits_iff, permits_only,
      permits_only] at hiff
  · rw [authorize_eq rfl hids hu, Except.ok.injEq,
      permits_congr (unmistaken_iff.mp h) fun _ _ => rfl, permits_iff]
  · intro h users' hids' hu' h' policy policy' hagree resource verb ns
    refine (authorize_eq rfl hids' hu').trans (Eq.trans ?_ (authorize_eq rfl hids hu).symm)
    rw [permits_congr (unmistaken_iff.mp h) fun _ _ => rfl]
    exact congrArg Except.ok (permits_congr (unmistaken_iff.mp h') hagree)

/-- A user with one policy. -/
def alice : User := ⟨"11111111-0000-4000-8000-000000000000", "alice", ["readonly"]⟩

/-- Everything may be read. -/
def readonly : Policy := ⟨[⟨"*", ["get", "list"], ""⟩]⟩

/-- A store with these users and the two policies `readonly` and `root`. -/
def sample (users : List User) : AuthStore where
  users := .ok users
  policy := fun
    | "readonly" => some readonly
    | "root" => some ⟨[⟨"*", ["*"], "*"⟩]⟩
    | _ => none

/-- A user that was named like the identifier of another one and is listed before it. -/
def mallory : User := ⟨"00000000-0000-4000-8000-000000000000", alice.id, ["root"]⟩

/-- One user before `alice` may do everything, and another one after it is named like it. -/
def crowd : List User :=
  [⟨"10000000-0000-4000-8000-000000000000", "root", ["root"]⟩, alice,
    ⟨"20000000-0000-4000-8000-000000000000", alice.id, ["root"]⟩]

/-- Among the others `alice` may read and not delete, as it may alone, and behind `mallory` it is
not judged by its own policies. -/
theorem authorize_own_policies_crowd :
    OwnPolicies (sample crowd) alice ∧
      (sample crowd).authorize alice.id "secrets" "delete" "prod" =
        (sample [alice]).authorize alice.id "secrets" "delete" "prod" ∧
      ¬ ∀ policy, OwnPolicies ⟨.ok [mallory, alice], policy⟩ alice := by
  have hcrowd : DistinctKeys User.id crowd := by decide
  have hfirst : Unmistaken crowd alice := by
    rintro v hv
    cases hv
  have halone : Unmistaken [alice] alice := by
    rintro v hv
    cases hv
  obtain ⟨hown, hsame⟩ := authorize_own_policies (by decide : DistinctKeys User.id [alice])
    (List.mem_singleton_self alice)
  refine ⟨(authorize_own_policies hcrowd (by decide)).1.mpr hfirst _,
    hsame halone crowd hcrowd (by decide) hfirst _ _ (fun _ _ => rfl) _ _ _, fun h => ?_⟩
  have hmistaken := (authorize_own_policies (by decide) (by decide)).1.mp h
  exact absurd ((hmistaken mallory rfl "root").mp (by decide)) (by decide)

/-- The policies of the one decide what the other may do. -/
theorem alice_judged_by_mallory :
    DistinctKeys User.id [mallory, alice] ∧ DistinctKeys User.name [mallory, alice] ∧
      (sample [alice]).authorize alice.id "secrets" "delete" "prod" = .ok false ∧
      (sample [mallory, alice]).authorize alice.id "secrets" "delete" "prod" = .ok true := by
  refine ⟨by decide, by decide, ?_, ?_⟩ <;> decide

end AuthStore

end Rune.Authz
