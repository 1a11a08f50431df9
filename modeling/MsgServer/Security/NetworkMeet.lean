import Mathlib.Data.List.Dedup
import MsgServer.Security.Network

/-!
Intersection of network policies. A URL is accepted through its scheme, host and port, so a
narrowed policy is compared with the original one target by target. The hosts of a policy are
intersected as they are spelled and compared as they are normalised; the two agree exactly
where no host of the policy has another spelling that the constraint names.
-/

namespace MsgServer.Network

open Library Library.Members

variable {python : Python}

/-- What the checks that no policy enters make of a URL. -/
structure Target (python : Python) (url scheme host : Text) (port : Int) : Prop where
  plain : 0 < url.length ∧ url.length ≤ 8192 ∧ '\\' ∉ url ∧ ∀ char ∈ url, PlainChar char
  parsed : ∃ parsed hostname read, python.urlsplit url = some parsed ∧ parsed.scheme = scheme ∧
    scheme ∈ [http, https] ∧
    (parsed.username = none ∧ parsed.password = none ∧ parsed.fragment = []) ∧
    parsed.hostname = some hostname ∧ normalizedHost python hostname = .ok host ∧
    parsed.port = some read ∧ port = read.getD (if scheme = https then 443 else 80)

/-- The host passes the check of the policy. -/
def HostIn (python : Python) (hosts : List Text) (host : Text) : Prop :=
  hosts = [] ∨ ∃ known, normalizedHosts python hosts = .ok known ∧ host ∈ known

def Accepts (python : Python) (policy : NetworkPolicy) (url method : Text) : Prop :=
  ∃ parsed, validateUrl python url method policy = .ok parsed

theorem checkHost_ok (policy : NetworkPolicy) (host : Text) (done : Unit) :
    checkHost python policy host = .ok done ↔ HostIn python policy.hosts host := by
  unfold checkHost HostIn
  by_cases any : policy.hosts = []
  · simp [any]
  · simp [any]

theorem accepts_iff (policy : NetworkPolicy) (url method : Text) :
    Accepts python policy url method ↔
      ∃ scheme host port, Target python url scheme host port ∧ scheme ∈ policy.schemes ∧
        port ∈ policy.ports ∧ method ∈ policy.methods ∧ HostIn python policy.hosts host := by
  simp only [Accepts, validateUrl, Program.except_bind_ok, require_ok, exists_const,
    requireRow_ok, checkHost_ok, Program.except_pure, Except.ok.injEq]
  constructor
  · rintro ⟨_, plain, parsed, split, ⟨allowed, web⟩, bare, hostname, named, host, normal, read,
      port, known, verb, hosted, rfl⟩
    exact ⟨_, host, _, ⟨plain, parsed, hostname, read, split, rfl, web, bare, named, normal, port,
      rfl⟩, allowed, known, verb, hosted⟩
  · rintro ⟨scheme, host, port, ⟨plain, parsed, hostname, read, split, rfl, web, bare, named,
      normal, there, rfl⟩, allowed, known, verb, hosted⟩
    exact ⟨parsed, plain, parsed, split, ⟨allowed, web⟩, bare, hostname, named, host, normal, read,
      there, known, verb, hosted, rfl⟩

/-- A URL has one target. -/
theorem Target.unique {url first second : Text} {here there : Text} {left right : Int}
    (one : Target python url first here left) (two : Target python url second there right) :
    first = second ∧ here = there ∧ left = right := by
  obtain ⟨parsed, hostname, read, split, rfl, _, _, named, normal, port, rfl⟩ := one.parsed
  obtain ⟨again, other, reread, resplit, rfl, _, _, renamed, renormal, report, rfl⟩ := two.parsed
  obtain rfl := Option.some.inj (split.symm.trans resplit)
  obtain rfl := Option.some.inj (named.symm.trans renamed)
  obtain rfl := Option.some.inj (port.symm.trans report)
  exact ⟨rfl, Except.ok.inj (normal.symm.trans renormal), rfl⟩

/-! Constraints as sets -/

def InHosts (python : Python) (constraints : Constraints) (host : Text) : Prop :=
  ∀ supplied, constraints.hosts = some supplied →
    ∃ name ∈ supplied, normalizedHost python name = .ok host

/-- A value lies in a field of a constraint, or the constraint leaves the field alone. -/
def Lies {β : Type} (field : Option (List β)) (value : β) : Prop :=
  ∀ supplied, field = some supplied → value ∈ supplied

structure Within (python : Python) (constraints : Constraints) (scheme host : Text) (port : Int)
    (method : Text) : Prop where
  host : InHosts python constraints host
  scheme : Lies constraints.schemes scheme
  port : Lies constraints.ports port
  method : Lies constraints.methods method

theorem mem_normalizedHosts {names values : List Text}
    (done : normalizedHosts python names = .ok values) (value : Text) :
    value ∈ values ↔ ∃ name ∈ names, normalizedHost python name = .ok value := by
  induction names generalizing values with
  | nil =>
      obtain rfl := Except.ok.inj done
      simp
  | cons name rest ih =>
      simp only [normalizedHosts, Program.except_bind_ok, Program.except_pure,
        Except.ok.injEq] at done
      obtain ⟨first, here, more, later, rfl⟩ := done
      rw [List.mem_cons, ih later, List.exists_mem_cons_iff, here, Except.ok.injEq]
      constructor
      · rintro (rfl | found)
        · exact .inl rfl
        · exact .inr found
      · rintro (rfl | found)
        · exact .inl rfl
        · exact .inr found

theorem normalizedHosts_ok {names : List Text}
    (each : ∀ name ∈ names, ∃ value, normalizedHost python name = .ok value) :
    ∃ values, normalizedHosts python names = .ok values := by
  induction names with
  | nil => exact ⟨[], rfl⟩
  | cons name rest ih =>
      obtain ⟨value, here⟩ := each name (by simp)
      obtain ⟨values, later⟩ := ih fun other member => each other (List.mem_cons_of_mem _ member)
      exact ⟨value :: values, by
        rw [normalizedHosts, here, Program.except_ok_bind, later, Program.except_ok_bind]
        rfl⟩

theorem normalizedHosts_each {names values : List Text}
    (done : normalizedHosts python names = .ok values) :
    ∀ name ∈ names, ∃ value, normalizedHost python name = .ok value := by
  induction names generalizing values with
  | nil => simp
  | cons name rest ih =>
      simp only [normalizedHosts, Program.except_bind_ok] at done
      obtain ⟨first, here, more, later, _⟩ := done
      intro other member
      rcases List.mem_cons.mp member with rfl | inRest
      · exact ⟨first, here⟩
      · exact ih later other inRest

theorem mem_sortedSet (hosts : List Text) (host : Text) : host ∈ sortedSet hosts ↔ host ∈ hosts := by
  rw [sortedSet, (List.perm_insertionSort _ _).mem_iff, List.mem_dedup]

theorem narrow_ok {β : Type} [DecidableEq β] {current narrowed : List β} {field : Option (List β)}
    (done : narrow current field = .ok narrowed) (value : β) :
    value ∈ narrowed ↔ value ∈ current ∧ Lies field value := by
  cases field with
  | none =>
      obtain rfl := Except.ok.inj done
      simp [Lies]
  | some supplied =>
      simp only [narrow, Program.except_bind_ok, require_ok, exists_const, Program.except_pure,
        Except.ok.injEq] at done
      obtain ⟨_, rfl⟩ := done
      simp [Lies]

theorem narrow_error {β : Type} [DecidableEq β] {current : List β} {field : Option (List β)}
    {failure : Failure} (raised : narrow current field = .error failure) (value : β) :
    ¬ (value ∈ current ∧ Lies field value) := by
  cases field with
  | none => cases raised
  | some supplied =>
      simp only [narrow, Program.except_bind_error, require_error, Program.except_pure,
        not_not] at raised
      rcases raised with ⟨empty, _⟩ | ⟨_, _, impossible⟩
      · rintro ⟨member, lies⟩
        have kept : value ∈ current.filter fun value => value ∈ supplied :=
          List.mem_filter.mpr ⟨member, by simpa using lies supplied rfl⟩
        rw [empty] at kept
        cases kept
      · cases impossible

/-! The hosts -/

/-- Normalising twice is normalising once. -/
def Idempotent (python : Python) : Prop :=
  ∀ name value, normalizedHost python name = .ok value → normalizedHost python value = .ok value

/-- A host that is its own normal form, as the host of every target is. -/
abbrev Normal (python : Python) (host : Text) : Prop := normalizedHost python host = .ok host

/-- No host of the policy has another spelling that the constraint names; where one of them is
no host at all, none is named. -/
def Spelled (python : Python) (hosts : List Text) (constraints : Constraints) : Prop :=
  hosts = [] ∨ constraints.hosts = none ∨
    ((∀ name ∈ hosts, ∃ value, normalizedHost python name = .ok value) ∧
      ∀ name ∈ hosts, ∀ value, normalizedHost python name = .ok value →
        InHosts python constraints value → value ∈ hosts) ∨
    ((∃ name ∈ hosts, ∀ value, normalizedHost python name ≠ .ok value) ∧
      ∀ name ∈ hosts, ¬ InHosts python constraints name)

def emptied : Failure := { code := "network_policy_empty" }

theorem hostIn_normal {names : List Text} (some : names ≠ [])
    (normal : ∀ name ∈ names, Normal python name) (host : Text) :
    HostIn python names host ↔ host ∈ names := by
  obtain ⟨known, done⟩ := normalizedHosts_ok fun name member => ⟨name, normal name member⟩
  have mem := mem_normalizedHosts done host
  have same : (∃ name ∈ names, normalizedHost python name = .ok host) ↔ host ∈ names := by
    constructor
    · rintro ⟨name, member, named⟩
      rw [normal name member, Except.ok.injEq] at named
      exact named ▸ member
    · exact fun member => ⟨host, member, normal host member⟩
  rw [HostIn, done]
  simp [some, mem, same]

/-- A constraint on the hosts, once its own hosts are read. -/
theorem inHosts_iff {constraints : Constraints} {supplied values : List Text}
    (field : constraints.hosts = some supplied)
    (done : normalizedHosts python supplied = .ok values) (host : Text) :
    InHosts python constraints host ↔ host ∈ values := by
  rw [mem_normalizedHosts done]
  constructor
  · exact fun lies => lies supplied field
  · rintro found other same
    obtain rfl := Option.some.inj (field.symm.trans same)
    exact found

theorem invalid_code {name : Text} {failure : Failure}
    (raised : normalizedHost python name = .error failure) : failure = { code := "invalid_host" } := by
  simp only [normalizedHost, Program.except_bind_error, require_error] at raised
  rcases raised with ⟨_, same⟩ | ⟨_, _, later⟩
  · exact same
  · split at later
    · cases later
    · simp only [Program.except_bind_error, requireRow_error, require_error] at later
      rcases later with ⟨_, same⟩ | ⟨_, _, ⟨_, same⟩ | ⟨_, _, impossible⟩⟩
      · exact same
      · exact same
      · cases impossible

theorem invalid_codes {names : List Text} {failure : Failure}
    (raised : normalizedHosts python names = .error failure) :
    failure = { code := "invalid_host" } := by
  induction names with
  | nil => cases raised
  | cons name rest ih =>
      simp only [normalizedHosts, Program.except_bind_error] at raised
      rcases raised with here | ⟨_, _, later | ⟨_, _, impossible⟩⟩
      · exact invalid_code here
      · exact ih later
      · cases impossible

/-- What is left when the hosts are narrowed, or that nothing is. -/
inductive HostStep (python : Python) (hosts : List Text) (constraints : Constraints) :
    Except Failure (List Text) → Prop
  | free (field : constraints.hosts = none) : HostStep python hosts constraints (.ok hosts)
  | invalid (raised : Failure) (code : raised = { code := "invalid_host" }) :
      HostStep python hosts constraints (.error raised)
  | narrowed (values left : List Text) (field : constraints.hosts ≠ none)
      (supplied : ∀ host, InHosts python constraints host ↔ host ∈ values)
      (left_eq : left = if hosts = [] then values else hosts.filter fun host => host ∈ values)
      (some : left ≠ []) : HostStep python hosts constraints (.ok (sortedSet left))
  | emptied (values left : List Text) (field : constraints.hosts ≠ none)
      (supplied : ∀ host, InHosts python constraints host ↔ host ∈ values)
      (left_eq : left = if hosts = [] then values else hosts.filter fun host => host ∈ values)
      (none : left = []) : HostStep python hosts constraints (.error Network.emptied)

theorem narrowHosts_step (python : Python) (hosts : List Text) (constraints : Constraints) :
    HostStep python hosts constraints (narrowHosts python hosts constraints.hosts) := by
  cases field : constraints.hosts with
  | none => exact .free field
  | some supplied =>
      rw [narrowHosts]
      cases done : normalizedHosts python supplied with
      | error failure => exact .invalid failure (invalid_codes done)
      | ok values =>
          rw [Program.except_ok_bind]
          dsimp only
          have mem := inHosts_iff field done
          have given : constraints.hosts ≠ none := by simp [field]
          by_cases empty : (if hosts = [] then values else
              hosts.filter fun host => host ∈ values) = []
          · have raised := HostStep.emptied values _ given mem rfl empty
            simpa [require, Program.ensure, empty, Program.except_error_bind, emptied] using raised
          · rw [require_true "network_policy_empty" empty, Program.except_ok_bind]
            exact .narrowed values _ given mem rfl empty

theorem sortedSet_ne {left : List Text} (some : left ≠ []) : sortedSet left ≠ [] := by
  obtain ⟨host, member⟩ := List.exists_mem_of_ne_nil left some
  exact List.ne_nil_of_mem ((mem_sortedSet left host).mpr member)

section Hosts

variable (idempotent : Idempotent python) {hosts narrowed : List Text} {constraints : Constraints}

include idempotent

theorem inHosts_normal (field : constraints.hosts ≠ none) {host : Text}
    (lies : InHosts python constraints host) : Normal python host := by
  obtain ⟨supplied, given⟩ := Option.ne_none_iff_exists'.mp field
  obtain ⟨name, _, named⟩ := lies supplied given
  exact idempotent name host named

/-- The hosts that a constraint leaves are their own normal forms. -/
theorem hostIn_narrowed {values left : List Text} (field : constraints.hosts ≠ none)
    (supplied : ∀ host, InHosts python constraints host ↔ host ∈ values)
    (left_eq : left = if hosts = [] then values else hosts.filter fun host => host ∈ values)
    (some : left ≠ []) (host : Text) :
    HostIn python (sortedSet left) host ↔
      (hosts = [] ∨ host ∈ hosts) ∧ InHosts python constraints host := by
  have mem : host ∈ left ↔ (hosts = [] ∨ host ∈ hosts) ∧ InHosts python constraints host := by
    rw [left_eq, supplied]
    by_cases any : hosts = []
    · simp [any]
    · simp [any]
  rw [hostIn_normal (sortedSet_ne some), mem_sortedSet, mem]
  intro name member
  apply inHosts_normal idempotent field
  rw [mem_sortedSet, left_eq] at member
  rw [supplied]
  split at member
  · exact member
  · simpa using (List.mem_filter.mp member).2

theorem spelled_ok (spelled : Spelled python hosts constraints)
    (done : narrowHosts python hosts constraints.hosts = .ok narrowed) {host : Text}
    (normal : Normal python host) :
    HostIn python narrowed host ↔ HostIn python hosts host ∧ InHosts python constraints host := by
  have step := narrowHosts_step python hosts constraints
  rw [done] at step
  cases step with
  | free field =>
      have free : InHosts python constraints host := fun supplied given => by
        rw [field] at given
        cases given
      exact ⟨fun inside => ⟨inside, free⟩, fun both => both.1⟩
  | narrowed values left field supplied left_eq some =>
      rw [hostIn_narrowed idempotent field supplied left_eq some]
      rcases spelled with any | free | ⟨valid, closed⟩ | ⟨_, none⟩
      · simp [HostIn, any]
      · exact absurd free field
      · obtain ⟨known, read⟩ := normalizedHosts_ok valid
        have mem := mem_normalizedHosts read host
        constructor
        · rintro ⟨any | inside, lies⟩
          · exact ⟨.inl any, lies⟩
          · exact ⟨.inr ⟨known, read, mem.mpr ⟨host, inside, normal⟩⟩, lies⟩
        · rintro ⟨any | ⟨again, reread, inside⟩, lies⟩
          · exact ⟨.inl any, lies⟩
          · obtain rfl := Except.ok.inj (read.symm.trans reread)
            obtain ⟨name, member, named⟩ := mem.mp inside
            exact ⟨.inr (closed name member host named lies), lies⟩
      · -- A host that is no host and none that is named leave nothing to narrow to.
        exfalso
        obtain ⟨other, member⟩ := List.exists_mem_of_ne_nil left some
        rw [left_eq] at member
        split at member
        · rename_i any
          rename_i bad
          obtain ⟨name, inHosts, _⟩ := bad
          rw [any] at inHosts
          cases inHosts
        · obtain ⟨inHosts, given⟩ := List.mem_filter.mp member
          exact none other inHosts ((supplied other).mpr (by simpa using given))

theorem spelled_empty (spelled : Spelled python hosts constraints)
    (raised : narrowHosts python hosts constraints.hosts = .error emptied) {host : Text} :
    ¬ (HostIn python hosts host ∧ InHosts python constraints host) := by
  have step := narrowHosts_step python hosts constraints
  rw [raised] at step
  cases step with
  | invalid _ code => exact absurd (congrArg Failure.code code) (by decide)
  | emptied values left field supplied left_eq none =>
      rintro ⟨inside, lies⟩
      have given := (supplied host).mp lies
      by_cases any : hosts = []
      · rw [if_pos any] at left_eq
        rw [← left_eq, none] at given
        cases given
      · rw [if_neg any] at left_eq
        rcases inside with empty | ⟨known, read, member⟩
        · exact any empty
        · obtain ⟨name, inHosts, named⟩ := (mem_normalizedHosts read host).mp member
          rcases spelled with empty | free | ⟨_, closed⟩ | ⟨⟨bad, inBad, invalid⟩, _⟩
          · exact any empty
          · exact field free
          · have kept : host ∈ left := by
              rw [left_eq]
              exact List.mem_filter.mpr ⟨closed name inHosts host named lies, by simpa using given⟩
            rw [none] at kept
            cases kept
          · obtain ⟨value, valid⟩ := normalizedHosts_each read bad inBad
            exact invalid value valid

/-- The condition is needed: narrowed hosts that are the meet leave no other spelling out. -/
theorem spelled_of_ok (done : narrowHosts python hosts constraints.hosts = .ok narrowed)
    (meets : ∀ host, Normal python host → (HostIn python narrowed host ↔
      HostIn python hosts host ∧ InHosts python constraints host)) :
    Spelled python hosts constraints := by
  have step := narrowHosts_step python hosts constraints
  rw [done] at step
  cases step with
  | free field => exact .inr (.inl field)
  | narrowed values left field supplied left_eq some =>
      by_cases any : hosts = []
      · exact .inl any
      · have inside := hostIn_narrowed idempotent field supplied left_eq some
        by_cases valid : ∀ name ∈ hosts, ∃ value, normalizedHost python name = .ok value
        · refine .inr (.inr (.inl ⟨valid, fun name member value named lies => ?_⟩))
          obtain ⟨known, read⟩ := normalizedHosts_ok valid
          have normal := idempotent name value named
          have accepted : HostIn python hosts value :=
            .inr ⟨known, read, (mem_normalizedHosts read value).mpr ⟨name, member, named⟩⟩
          rcases ((inside value).mp ((meets value normal).mpr ⟨accepted, lies⟩)).1 with none | here
          · exact absurd none any
          · exact here
        · exfalso
          -- Some host is none at all, so the policy accepts nothing that its narrowing accepts.
          obtain ⟨host, member⟩ := List.exists_mem_of_ne_nil left some
          rw [left_eq, if_neg any] at member
          obtain ⟨inHosts, given⟩ := List.mem_filter.mp member
          have lies : InHosts python constraints host := (supplied host).mpr (by simpa using given)
          have normal := inHosts_normal idempotent field lies
          rcases ((meets host normal).mp ((inside host).mpr ⟨.inr inHosts, lies⟩)).1 with
            none | ⟨known, read, _⟩
          · exact any none
          · exact valid (normalizedHosts_each read)

theorem spelled_of_empty (raised : narrowHosts python hosts constraints.hosts = .error emptied)
    (nothing : ∀ host, Normal python host →
      ¬ (HostIn python hosts host ∧ InHosts python constraints host)) :
    Spelled python hosts constraints := by
  have step := narrowHosts_step python hosts constraints
  rw [raised] at step
  cases step with
  | invalid _ code => exact absurd (congrArg Failure.code code) (by decide)
  | emptied values left field supplied left_eq none =>
      by_cases any : hosts = []
      · exact .inl any
      · by_cases valid : ∀ name ∈ hosts, ∃ value, normalizedHost python name = .ok value
        · refine .inr (.inr (.inl ⟨valid, fun name member value named lies => ?_⟩))
          obtain ⟨known, read⟩ := normalizedHosts_ok valid
          exact absurd ⟨.inr ⟨known, read,
            (mem_normalizedHosts read value).mpr ⟨name, member, named⟩⟩, lies⟩
            (nothing value (idempotent name value named))
        · obtain ⟨bad, inBad, invalid⟩ : ∃ name ∈ hosts, ∀ value,
              normalizedHost python name ≠ .ok value := by
            simpa using valid
          refine .inr (.inr (.inr ⟨⟨bad, inBad, invalid⟩, fun name member lies => ?_⟩))
          have kept : name ∈ left := by
            rw [left_eq, if_neg any]
            exact List.mem_filter.mpr ⟨member, by simpa using (supplied name).mp lies⟩
          rw [none] at kept
          cases kept

end Hosts

/-! One intersection -/

def limitValues : Option Limit → List Int
  | some (.int value) => [value]
  | _ => []

theorem narrowLimit_ok {minimum current narrowed : Int} {field : Option Limit}
    (done : narrowLimit minimum current field = .ok narrowed) :
    narrowed = (limitValues field).foldl min current := by
  cases field with
  | none => exact (Except.ok.inj done).symm
  | some limit =>
      cases limit with
      | int value =>
          simp only [narrowLimit, Program.except_bind_ok, require_ok, exists_const,
            Program.except_pure, Except.ok.injEq] at done
          simp [limitValues, ← done.2, min_comm]
      | other => cases done

/-- What the policy after some constraints is, in terms of the policy before them. -/
structure Meets (python : Python) (policy : NetworkPolicy) (constraints : List Constraints)
    (final : NetworkPolicy) : Prop where
  hosts : ∀ host, Normal python host → (HostIn python final.hosts host ↔
    HostIn python policy.hosts host ∧ ∀ each ∈ constraints, InHosts python each host)
  schemes : ∀ scheme, scheme ∈ final.schemes ↔
    scheme ∈ policy.schemes ∧ ∀ each ∈ constraints, Lies each.schemes scheme
  ports : ∀ port, port ∈ final.ports ↔
    port ∈ policy.ports ∧ ∀ each ∈ constraints, Lies each.ports port
  methods : ∀ method, method ∈ final.methods ↔
    method ∈ policy.methods ∧ ∀ each ∈ constraints, Lies each.methods method
  timeoutMs : final.timeoutMs =
    (constraints.flatMap fun each => limitValues each.timeoutMs).foldl min policy.timeoutMs
  maxResponseBytes : final.maxResponseBytes =
    (constraints.flatMap fun each => limitValues each.maxResponseBytes).foldl min
      policy.maxResponseBytes
  maxRedirects : final.maxRedirects =
    (constraints.flatMap fun each => limitValues each.maxRedirects).foldl min policy.maxRedirects

theorem Meets.refl (policy : NetworkPolicy) : Meets python policy [] policy where
  hosts := by simp
  schemes := by simp
  ports := by simp
  methods := by simp
  timeoutMs := rfl
  maxResponseBytes := rfl
  maxRedirects := rfl

/-- Membership in a field that two lists of constraints narrow one after the other. -/
theorem meet_trans {early late : List Constraints} {own middle final : Prop}
    {lies : Constraints → Prop} (first : middle ↔ own ∧ ∀ each ∈ early, lies each)
    (second : final ↔ middle ∧ ∀ each ∈ late, lies each) :
    final ↔ own ∧ ∀ each ∈ early ++ late, lies each := by
  rw [second, first, and_assoc, List.forall_mem_append]

theorem Meets.trans {policy middle final : NetworkPolicy} {early late : List Constraints}
    (first : Meets python policy early middle) (second : Meets python middle late final) :
    Meets python policy (early ++ late) final where
  hosts host normal := meet_trans (first.hosts host normal) (second.hosts host normal)
  schemes scheme := meet_trans (first.schemes scheme) (second.schemes scheme)
  ports port := meet_trans (first.ports port) (second.ports port)
  methods method := meet_trans (first.methods method) (second.methods method)
  timeoutMs := by
    rw [List.flatMap_append, List.foldl_append, ← first.timeoutMs, second.timeoutMs]
  maxResponseBytes := by
    rw [List.flatMap_append, List.foldl_append, ← first.maxResponseBytes, second.maxResponseBytes]
  maxRedirects := by
    rw [List.flatMap_append, List.foldl_append, ← first.maxRedirects, second.maxRedirects]

/-- What `intersect_policy` has done when it returns. -/
structure Intersected (python : Python) (policy : NetworkPolicy) (constraints : Constraints)
    (final : NetworkPolicy) : Prop where
  hosts : narrowHosts python policy.hosts constraints.hosts = .ok final.hosts
  schemes : narrow policy.schemes constraints.schemes = .ok final.schemes
  ports : narrow policy.ports constraints.ports = .ok final.ports
  methods : narrow policy.methods constraints.methods = .ok final.methods
  timeoutMs : narrowLimit 1 policy.timeoutMs constraints.timeoutMs = .ok final.timeoutMs
  maxResponseBytes :
    narrowLimit 1 policy.maxResponseBytes constraints.maxResponseBytes = .ok final.maxResponseBytes
  maxRedirects : narrowLimit 0 policy.maxRedirects constraints.maxRedirects = .ok final.maxRedirects

theorem intersectPolicy_ok {policy final : NetworkPolicy} {constraints : Constraints}
    (done : intersectPolicy python policy constraints = .ok final) :
    Intersected python policy constraints final := by
  simp only [intersectPolicy, Program.except_bind_ok, require_ok, exists_const,
    Program.except_pure, Except.ok.injEq] at done
  obtain ⟨_, hosts, hostsDone, schemes, schemesDone, ports, portsDone, methods, methodsDone,
    timeoutMs, timeoutDone, responses, responsesDone, redirects, redirectsDone, rfl⟩ := done
  exact ⟨hostsDone, schemesDone, portsDone, methodsDone, timeoutDone, responsesDone, redirectsDone⟩

theorem Intersected.meets (idempotent : Idempotent python) {policy final : NetworkPolicy}
    {constraints : Constraints} (done : Intersected python policy constraints final)
    (spelled : Spelled python policy.hosts constraints) :
    Meets python policy [constraints] final where
  hosts host normal := by
    simpa using spelled_ok idempotent spelled done.hosts normal
  schemes scheme := by simpa using narrow_ok done.schemes scheme
  ports port := by simpa using narrow_ok done.ports port
  methods method := by simpa using narrow_ok done.methods method
  timeoutMs := by simpa using narrowLimit_ok done.timeoutMs
  maxResponseBytes := by simpa using narrowLimit_ok done.maxResponseBytes
  maxRedirects := by simpa using narrowLimit_ok done.maxRedirects

/-- A URL under the narrowed policy. -/
def AcceptedTogether (python : Python) (policy : NetworkPolicy) (constraints : List Constraints)
    (final : NetworkPolicy) : Prop :=
  ∀ url method, Accepts python final url method ↔ Accepts python policy url method ∧
    ∀ each ∈ constraints, ∀ scheme host port, Target python url scheme host port →
      Within python each scheme host port method

theorem Target.normal (idempotent : Idempotent python) {url scheme host : Text} {port : Int}
    (target : Target python url scheme host port) : Normal python host := by
  obtain ⟨_, hostname, _, _, _, _, _, _, normal, _⟩ := target.parsed
  exact idempotent hostname host normal

theorem Meets.accepted (idempotent : Idempotent python) {policy final : NetworkPolicy}
    {constraints : List Constraints} (meets : Meets python policy constraints final) :
    AcceptedTogether python policy constraints final := by
  intro url method
  rw [accepts_iff, accepts_iff]
  constructor
  · rintro ⟨scheme, host, port, target, allowed, known, verb, hosted⟩
    have normal := target.normal idempotent
    obtain ⟨ownScheme, schemes⟩ := (meets.schemes scheme).mp allowed
    obtain ⟨ownPort, ports⟩ := (meets.ports port).mp known
    obtain ⟨ownMethod, methods⟩ := (meets.methods method).mp verb
    obtain ⟨ownHost, hosts⟩ := (meets.hosts host normal).mp hosted
    refine ⟨⟨scheme, host, port, target, ownScheme, ownPort, ownMethod, ownHost⟩, ?_⟩
    intro each member otherScheme otherHost otherPort other
    obtain ⟨rfl, rfl, rfl⟩ := target.unique other
    exact ⟨hosts each member, schemes each member, ports each member, methods each member⟩
  · rintro ⟨⟨scheme, host, port, target, ownScheme, ownPort, ownMethod, ownHost⟩, within⟩
    have here := fun each member => within each member scheme host port target
    refine ⟨scheme, host, port, target, (meets.schemes scheme).mpr ⟨ownScheme, ?_⟩,
      (meets.ports port).mpr ⟨ownPort, ?_⟩, (meets.methods method).mpr ⟨ownMethod, ?_⟩,
      (meets.hosts host (target.normal idempotent)).mpr ⟨ownHost, ?_⟩⟩
    · exact fun each member => (here each member).scheme
    · exact fun each member => (here each member).port
    · exact fun each member => (here each member).method
    · exact fun each member => (here each member).host

/-! Folds -/

/-- The condition on every step of a fold, each in the policy before it. -/
def SpelledAll (python : Python) : NetworkPolicy → List Constraints → Prop
  | _, [] => True
  | policy, first :: rest =>
      Spelled python policy.hosts first ∧
        ∀ next, intersectPolicy python policy first = .ok next → SpelledAll python next rest

/-- The field that a constraint would leave without a value, after these before it, and that
no value satisfies the policy and all of them in that field. -/
inductive NoneLeft (python : Python) (policy : NetworkPolicy) (early : List Constraints)
    (current : NetworkPolicy) (constraints : Constraints) : Prop
  | hosts (raised : narrowHosts python current.hosts constraints.hosts = .error emptied)
      (none : ∀ host, Normal python host → ¬ (HostIn python policy.hosts host ∧
        ∀ each ∈ early ++ [constraints], InHosts python each host))
  | schemes (raised : narrow current.schemes constraints.schemes = .error emptied)
      (none : ∀ scheme, ¬ (scheme ∈ policy.schemes ∧
        ∀ each ∈ early ++ [constraints], Lies each.schemes scheme))
  | ports (raised : narrow current.ports constraints.ports = .error emptied)
      (none : ∀ port, ¬ (port ∈ policy.ports ∧
        ∀ each ∈ early ++ [constraints], Lies each.ports port))
  | methods (raised : narrow current.methods constraints.methods = .error emptied)
      (none : ∀ method, ¬ (method ∈ policy.methods ∧
        ∀ each ∈ early ++ [constraints], Lies each.methods method))

theorem narrowLimit_code {minimum current : Int} {field : Option Limit}
    (raised : narrowLimit minimum current field = .error emptied) : False := by
  cases field with
  | none => cases raised
  | some limit =>
      cases limit with
      | int value =>
          simp only [narrowLimit, Program.except_bind_error, require_error] at raised
          rcases raised with ⟨_, same⟩ | ⟨_, _, impossible⟩
          · exact absurd (congrArg Failure.code same) (by decide)
          · cases impossible
      | other => exact absurd (congrArg Failure.code (Except.error.inj raised)) (by decide)

/-- Four fields can be found empty, in this order. -/
theorem intersectPolicy_empty {policy : NetworkPolicy} {constraints : Constraints}
    (raised : intersectPolicy python policy constraints = .error emptied) :
    narrowHosts python policy.hosts constraints.hosts = .error emptied ∨
      narrow policy.schemes constraints.schemes = .error emptied ∨
      narrow policy.ports constraints.ports = .error emptied ∨
      narrow policy.methods constraints.methods = .error emptied := by
  simp only [intersectPolicy, Program.except_bind_error, require_error] at raised
  rcases raised with ⟨_, same⟩ | ⟨_, _, hosts | ⟨_, _, schemes | ⟨_, _, ports | ⟨_, _, methods |
    ⟨_, _, timeouts | ⟨_, _, responses | ⟨_, _, redirects | ⟨_, _, impossible⟩⟩⟩⟩⟩⟩⟩⟩
  · exact absurd (congrArg Failure.code same) (by decide)
  · exact .inl hosts
  · exact .inr (.inl schemes)
  · exact .inr (.inr (.inl ports))
  · exact .inr (.inr (.inr methods))
  · exact (narrowLimit_code timeouts).elim
  · exact (narrowLimit_code responses).elim
  · exact (narrowLimit_code redirects).elim
  · cases impossible

/-- A value in a field of the policy and of all the constraints is in the field that the last
of them narrows. -/
theorem split_last {early : List Constraints} {last : Constraints} {own current : Prop}
    {lies : Constraints → Prop} (first : current ↔ own ∧ ∀ each ∈ early, lies each)
    (both : own ∧ ∀ each ∈ early ++ [last], lies each) : current ∧ lies last := by
  obtain ⟨here, all⟩ := both
  rw [List.forall_mem_append] at all
  exact ⟨first.mpr ⟨here, all.1⟩, all.2 last (by simp)⟩

theorem noneLeft_of (idempotent : Idempotent python) {policy current : NetworkPolicy}
    {early : List Constraints} {constraints : Constraints}
    (meets : Meets python policy early current)
    (spelled : Spelled python current.hosts constraints)
    (raised : intersectPolicy python current constraints = .error emptied) :
    NoneLeft python policy early current constraints := by
  rcases intersectPolicy_empty raised with hosts | schemes | ports | methods
  · exact .hosts hosts fun host normal both =>
      spelled_empty idempotent spelled hosts (split_last (meets.hosts host normal) both)
  · exact .schemes schemes fun scheme both =>
      narrow_error schemes scheme (split_last (meets.schemes scheme) both)
  · exact .ports ports fun port both =>
      narrow_error ports port (split_last (meets.ports port) both)
  · exact .methods methods fun method both =>
      narrow_error methods method (split_last (meets.methods method) both)

theorem intersectAll_meets (idempotent : Idempotent python) {policy : NetworkPolicy}
    (late : List Constraints) :
    ∀ {early : List Constraints} {current : NetworkPolicy}, Meets python policy early current →
      SpelledAll python current late →
      (∀ final, intersectAll python current late = .ok final →
        Meets python policy (early ++ late) final) ∧
      (intersectAll python current late = .error emptied →
        ∃ before each after state, early ++ late = before ++ each :: after ∧
          Meets python policy before state ∧ NoneLeft python policy before state each) := by
  induction late with
  | nil =>
      intro early current meets _
      refine ⟨fun final done => ?_, fun raised => by cases raised⟩
      obtain rfl := Except.ok.inj done
      simpa using meets
  | cons first rest ih =>
      intro early current meets spelled
      have joined : early ++ first :: rest = (early ++ [first]) ++ rest := by simp
      simp only [intersectAll, Program.except_bind_ok, Program.except_bind_error]
      constructor
      · rintro final ⟨next, step, later⟩
        have grown := meets.trans ((intersectPolicy_ok step).meets idempotent spelled.1)
        rw [joined]
        exact (ih grown (spelled.2 next step)).1 final later
      · rintro (raised | ⟨next, step, later⟩)
        · exact ⟨early, first, rest, current, rfl, meets,
            noneLeft_of idempotent meets spelled.1 raised⟩
        · have grown := meets.trans ((intersectPolicy_ok step).meets idempotent spelled.1)
          rw [joined]
          exact (ih grown (spelled.2 next step)).2 later

/-! Where the condition fails -/

/-- A URL for every host in its normal form, whatever web scheme and port. -/
def Reaches (python : Python) : Prop :=
  ∀ scheme ∈ [http, https], ∀ host, Normal python host → ∀ port : Int, 0 ≤ port → port ≤ 65535 →
    ∃ url, Target python url scheme host port

/-- A policy under which some URL passes for its scheme, its port and its method. -/
def Usable (policy : NetworkPolicy) : Prop :=
  (∃ scheme ∈ policy.schemes, scheme ∈ [http, https]) ∧
    (∃ port ∈ policy.ports, 0 ≤ port ∧ port ≤ 65535) ∧ ∃ method, method ∈ policy.methods

theorem spelled_of_together (idempotent : Idempotent python) (reaches : Reaches python)
    {policy final : NetworkPolicy} {constraints : Constraints}
    (done : intersectPolicy python policy constraints = .ok final) (usable : Usable final)
    (together : AcceptedTogether python policy [constraints] final) :
    Spelled python policy.hosts constraints := by
  have step := intersectPolicy_ok done
  obtain ⟨⟨scheme, inScheme, web⟩, ⟨port, inPort, low, high⟩, method, inMethod⟩ := usable
  obtain ⟨ownScheme, schemes⟩ := (narrow_ok step.schemes scheme).mp inScheme
  obtain ⟨ownPort, ports⟩ := (narrow_ok step.ports port).mp inPort
  obtain ⟨ownMethod, methods⟩ := (narrow_ok step.methods method).mp inMethod
  refine spelled_of_ok idempotent step.hosts fun host normal => ?_
  obtain ⟨url, target⟩ := reaches scheme web host normal port low high
  have compare := together url method
  rw [accepts_iff, accepts_iff] at compare
  constructor
  · intro inside
    obtain ⟨⟨_, _, _, other, _, _, _, hosted⟩, within⟩ :=
      compare.mp ⟨scheme, host, port, target, inScheme, inPort, inMethod, inside⟩
    obtain ⟨rfl, rfl, rfl⟩ := target.unique other
    exact ⟨hosted, (within constraints (by simp) _ _ _ target).host⟩
  · rintro ⟨inside, lies⟩
    have within : ∀ each ∈ [constraints], ∀ otherScheme otherHost otherPort,
        Target python url otherScheme otherHost otherPort →
          Within python each otherScheme otherHost otherPort method := by
      intro each member otherScheme otherHost otherPort other
      obtain rfl := List.mem_singleton.mp member
      obtain ⟨rfl, rfl, rfl⟩ := target.unique other
      exact ⟨lies, schemes, ports, methods⟩
    obtain ⟨_, _, _, other, _, _, _, hosted⟩ := compare.mpr
      ⟨⟨scheme, host, port, target, ownScheme, ownPort, ownMethod, inside⟩, within⟩
    obtain ⟨rfl, rfl, rfl⟩ := target.unique other
    exact hosted

/-- Narrowing by any constraints is the meet wherever the hosts of each policy on the way have
no other spelling that the next constraint names, and in one step nowhere else. -/
theorem intersection_meet (python : Python) (idempotent : Idempotent python) :
    (∀ policy constraints, SpelledAll python policy constraints →
      (∀ final, intersectAll python policy constraints = .ok final →
        AcceptedTogether python policy constraints final ∧
          Meets python policy constraints final) ∧
      (intersectAll python policy constraints = .error emptied →
        ∃ before each after state, constraints = before ++ each :: after ∧
          Meets python policy before state ∧ NoneLeft python policy before state each)) ∧
    (Reaches python → ∀ policy constraints,
      (∀ final, intersectPolicy python policy constraints = .ok final → Usable final →
        (AcceptedTogether python policy [constraints] final ↔
          Spelled python policy.hosts constraints)) ∧
      (narrowHosts python policy.hosts constraints.hosts = .error emptied →
        ((∀ host, Normal python host →
            ¬ (HostIn python policy.hosts host ∧ InHosts python constraints host)) ↔
          Spelled python policy.hosts constraints))) := by
  constructor
  · intro policy constraints spelled
    have run := intersectAll_meets idempotent constraints (Meets.refl policy) spelled
    rw [List.nil_append] at run
    exact ⟨fun final done => ⟨(run.1 final done).accepted idempotent, run.1 final done⟩, run.2⟩
  · intro reaches policy constraints
    refine ⟨fun final done usable => ⟨spelled_of_together idempotent reaches done usable,
      fun spelled => ?_⟩, fun raised => ⟨spelled_of_empty idempotent raised,
      fun spelled host _ => spelled_empty idempotent spelled raised⟩⟩
    exact ((intersectPolicy_ok done).meets idempotent spelled).accepted idempotent

/-! One host in two spellings -/

def exampleHost : Text := "example.com".toList

def portOf (digits : Text) : Int := Nat.ofDigitChars 10 digits 0

def exampleUrl (scheme : Text) (port : Int) : Parsed :=
  { scheme := scheme, hostname := some exampleHost, username := none, password := none,
    fragment := [], port := some (some port) }

/-- The library on the one host `example.com`, with the port always written. -/
def oneHost : Python where
  lower := List.map Char.toLower
  ipAddress _ := none
  idna host := if host = exampleHost then some host else none
  urlsplit url :=
    if "https://example.com:".toList.isPrefixOf url then
      some (exampleUrl https (portOf (url.drop 20)))
    else if "http://example.com:".toList.isPrefixOf url then
      some (exampleUrl http (portOf (url.drop 19)))
    else none

theorem oneHost_value {name value : Text} (done : normalizedHost oneHost name = .ok value) :
    value = exampleHost := by
  simp only [normalizedHost, oneHost, Program.except_bind_ok, requireRow_ok] at done
  obtain ⟨_, _, _, found, _, _, same⟩ := done
  split at found
  · rename_i here
    rw [Option.some.injEq] at found
    rw [← Except.ok.inj same, ← found, here]
  · cases found

theorem oneHost_idempotent : Idempotent oneHost := by
  intro name value done
  obtain rfl := oneHost_value done
  decide +kernel

def widePolicy : NetworkPolicy :=
  { schemes := [https], hosts := ["Example.com".toList], ports := [443], methods := ["GET".toList],
    allowPrivate := false, timeoutMs := 1000, maxResponseBytes := 1000, maxRedirects := 0 }

def namedHost : Constraints :=
  { hosts := some [exampleHost], schemes := none, ports := none, methods := none,
    timeoutMs := none, maxResponseBytes := none, maxRedirects := none, others := [] }

/-- The policy accepts the host that the constraint names, and their intersection is empty. -/
theorem spelling_lost :
    intersectAll oneHost widePolicy [namedHost] = .error emptied ∧
      Accepts oneHost widePolicy "https://example.com:443".toList "GET".toList ∧
      HostIn oneHost widePolicy.hosts exampleHost ∧ InHosts oneHost namedHost exampleHost := by
  have accepted : validateUrl oneHost "https://example.com:443".toList "GET".toList widePolicy =
      .ok (exampleUrl https 443) := by decide +kernel
  refine ⟨by decide +kernel, ⟨_, accepted⟩, .inr ⟨[exampleHost], by decide +kernel, by simp⟩, ?_⟩
  rintro supplied given
  obtain rfl := Option.some.inj given
  exact ⟨exampleHost, by simp, by decide +kernel⟩

theorem intersection_meet_plain :
    AcceptedTogether oneHost { widePolicy with hosts := [exampleHost] } [namedHost]
      { widePolicy with hosts := [exampleHost] } := by
  have spelled : SpelledAll oneHost { widePolicy with hosts := [exampleHost] } [namedHost] := by
    refine ⟨.inr (.inr (.inl ⟨fun name member => ⟨exampleHost, ?_⟩,
      fun name _ value named _ => ?_⟩)), fun _ _ => trivial⟩
    · obtain rfl := List.mem_singleton.mp member
      decide +kernel
    · rw [oneHost_value named]
      exact List.mem_singleton_self _
  exact (((intersection_meet oneHost oneHost_idempotent).1 _ _ spelled).1 _
    (by decide +kernel)).1

end MsgServer.Network
