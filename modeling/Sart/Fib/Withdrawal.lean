import Sart.Fib.Channel
import Sart.Lib.Run

/-!
# Withdrawals of the BGP daemon

The request of the BGP daemon names the destination, and the subscriber makes a route of it
whose other fields are the default ones.  So its protocol is not BGP: a route is looked for
by its next hops, and what is found is removed, whoever it is from.
-/

namespace Sart.Fib

open Sart.Lib

def Error.message : Error → String
  | .invalidIpVersion => "invalid ip version"
  | .invalidProtocol => "invalid protocol"
  | .invalidScope => "invalid scope"
  | .invalidType => "invalid type"
  | .invalidADValue => "invalid ad value"
  | .invalidNextHopFlag => "invalid next hop flag"
  | .multipathIsNotEqual => "multi path is not equal"

inductive Refusal where
  | aborted (message : String)
  | internal (message : String)
  deriving DecidableEq

def ipVersionFrom (value : UInt32) : Except Error IpVersion :=
  if value = 2 then .ok .v4 else if value = 10 then .ok .v6 else .error .invalidProtocol

namespace BgpSubscriber

def addRoute (parse : String → Option IpAddr) (route : Sart.Route) :
    Except Refusal (RequestType × Route) :=
  match Route.tryFrom parse route with
  | .ok route => .ok (.add, route)
  | .error cause => .error (.aborted cause.message)

def deleteRoute (version : Int32) (destination : IpNet) : Except Refusal (RequestType × Route) :=
  match ipVersionFrom version.toUInt32 with
  | .ok version => .ok (.delete, .default destination version)
  | .error _ => .error (.aborted "invalid ip version")

def addMultiPathRoute (parse : String → Option IpAddr) (route : Sart.Route) :
    Except Refusal (RequestType × Route) :=
  match Route.tryFrom parse route with
  | .ok route => .ok (.addMultiPath, route)
  | .error cause => .error (.internal ("failed to convert type: " ++ cause.message))

def deleteMultiPathRoute (version : Int32) (destination : IpNet) (gateways : List IpAddr) :
    Except Refusal (RequestType × Route) :=
  match ipVersionFrom version.toUInt32 with
  | .ok version =>
    .ok (.deleteMultiPath, { Route.default destination version with
      nextHops := gateways.map fun gateway => ⟨gateway, 1, .empty, 0⟩ })
  | .error _ => .error (.aborted "invalid ip version")

def serve (parse : String → Option IpAddr) : FibRequest → Except Refusal (RequestType × Route)
  | .addRoute _ _ route _ => addRoute parse route
  | .addMultiPathRoute _ _ route => addMultiPathRoute parse route
  | .deleteMultiPathRoute _ version destination gateways =>
    deleteMultiPathRoute version destination gateways
  | .deleteRoute _ version destination => deleteRoute version destination

end BgpSubscriber

inductive Withdrawal where
  | route (destination : IpNet)
  | nextHops (destination : IpNet) (gateways : List IpAddr)
  deriving DecidableEq

namespace Withdrawal

def destination : Withdrawal → IpNet
  | .route destination | .nextHops destination _ => destination

def toFib (table : UInt32) : Withdrawal → FibRequest
  | .route destination => .deleteRoute table 2 destination
  | .nextHops destination gateways => .deleteMultiPathRoute table 2 destination gateways

def asked : Withdrawal → RequestType × Route
  | .route destination => (.delete, .default destination .v4)
  | .nextHops destination gateways =>
    (.deleteMultiPath, { Route.default destination .v4 with
      nextHops := gateways.map fun gateway => ⟨gateway, 1, .empty, 0⟩ })

theorem serve_toFib (parse : String → Option IpAddr) (table : UInt32) (withdrawal : Withdrawal) :
    BgpSubscriber.serve parse (withdrawal.toFib table) = .ok withdrawal.asked := by
  cases withdrawal <;> rfl

def remains (withdrawal : Withdrawal) (route : Route) : Option Route :=
  match withdrawal with
  | .route _ => none
  | .nextHops _ gateways =>
    match route.nextHops.filter fun hop => hop.gateway ∉ gateways with
    | [] => none
    | left => some { route with nextHops := left }

end Withdrawal

def ChannelState.Withdraws (state : ChannelState) (request : RequestType × Route)
    (withdrawal : Withdrawal) : Prop :=
  (state.step request).stopped = false ∧
    ∀ destination protocol, Channel.getRoute (state.step request).rib destination protocol =
      if destination = withdrawal.destination ∧ protocol = .bgp then
        (Channel.getRoute state.rib destination .bgp).bind withdrawal.remains
      else Channel.getRoute state.rib destination protocol

namespace Rib

/-- The route of the BGP daemon has next hops, and none of them is to go. -/
def Untouched (rib : Rib) (destination : IpNet) (gateways : List IpAddr) : Prop :=
  ∀ route, Channel.getRoute rib destination .bgp = some route →
    route.nextHops ≠ [] ∧ ∀ gateway ∈ route.gateways, gateway ∉ gateways

/-- The condition on a withdrawal.  A route can be withdrawn only if there is none.  For gateways,
the first route with as many, all but the last of them the withdrawn ones, is the route of the BGP
daemon and all of its gateways go, or there is no such route and nothing to withdraw. -/
def Withdrawable (rib : Rib) : Withdrawal → Prop
  | .route destination =>
    Channel.getRoute rib destination .bgp = none ∧
      ∀ route ∈ rib.routes destination, route.nextHops ≠ []
  | .nextHops destination gateways =>
    match Channel.getRoute rib destination .unspec with
    | some existing =>
      (existing.comparable (.default destination .v4) = true →
        ∀ gateway ∈ existing.gateways, gateway ∉ gateways) ∧
      rib.Untouched destination gateways
    | none =>
      (gateways = [] → ∀ route ∈ rib.routes destination, route.nextHops ≠ []) ∧
      match (rib.routes destination).find? fun route =>
        route.sameHops (Withdrawal.nextHops destination gateways).asked.2 = .ok true with
      | some route => route.protocol = .bgp ∧ ∀ gateway ∈ route.gateways, gateway ∈ gateways
      | none => rib.Untouched destination gateways

/-- A table of IPv4 routes, each under its own destination. -/
abbrev Own (rib : Rib) : Prop :=
  rib.Each .v4 fun destination route => route.destination = destination

variable {rib : Rib} {route existing changed stored : Route} {destination : IpNet}
  {listed before after : List Route}

section

variable (own : rib.Own)

include own

theorem getRoute_ranked (other : IpNet) (protocol : Protocol) :
    Channel.getRoute (rib.write destination (ranked changed (rib.routes destination))) other
      protocol =
      if other = destination ∧ protocol = changed.protocol then some changed
      else Channel.getRoute rib other protocol := by
  have distinct := own.distinct destination
  rw [getRoute_eq, getRoute_eq, routes_write]
  by_cases same : other = destination
  · subst same
    rw [if_pos rfl]
    by_cases isProtocol : protocol = changed.protocol
    · rw [if_pos ⟨rfl, isProtocol⟩, isProtocol]
      exact (Keyed.find_eq_some (distinct_ranked distinct)).mpr
        ⟨(mem_ranked distinct).mpr (.inl rfl), rfl⟩
    rw [if_neg fun both => isProtocol both.2]
    refine Keyed.find_eq_of_mem_iff distinct (distinct_ranked distinct) fun route isKey => ?_
    rw [mem_ranked distinct]
    constructor
    · rintro (rfl | ⟨old, -⟩)
      · exact absurd isKey.symm isProtocol
      · exact old
    · exact fun old => .inr ⟨old, fun equal => isProtocol (isKey.symm.trans equal)⟩
  · rw [if_neg same, if_neg fun both => same both.1]

theorem getRoute_removed
    (split : rib.routes destination = before ++ stored :: after) (other : IpNet)
    (protocol : Protocol) :
    Channel.getRoute (rib.write destination (before ++ after)) other protocol =
      if other = destination ∧ protocol = stored.protocol then none
      else Channel.getRoute rib other protocol := by
  have distinct := own.distinct destination
  have distinct' : Distinct (before ++ after) := by
    have kept := (own.removed split).distinct destination
    rwa [routes_write, if_pos rfl] at kept
  rw [getRoute_eq, getRoute_eq, routes_write]
  by_cases same : other = destination
  · subst same
    rw [if_pos rfl]
    -- The removed route was the only one of its protocol.
    have alone : ∀ route ∈ before ++ after, route.protocol ≠ stored.protocol := by
      rw [split] at distinct
      exact fun route member => distinct.ne_of_split member
    by_cases isProtocol : protocol = stored.protocol
    · rw [if_pos ⟨rfl, isProtocol⟩, isProtocol]
      exact Keyed.find_eq_none.mpr alone
    rw [if_neg fun both => isProtocol both.2, split]
    rw [split] at distinct
    refine Keyed.find_eq_of_mem_iff distinct distinct' fun route isKey => ?_
    rw [List.perm_middle.mem_iff, List.mem_cons]
    constructor
    · exact .inr
    · rintro (rfl | member)
      · exact absurd isKey.symm isProtocol
      · exact member
  · rw [if_neg same, if_neg fun both => same both.1]

end

end Rib

theorem changed_iff {known final : IpNet → Protocol → Option Route} {destination : IpNet}
    {protocol : Protocol} {value goal : Option Route}
    (effect : ∀ other otherProtocol, final other otherProtocol =
      if other = destination ∧ otherProtocol = protocol then value else known other otherProtocol) :
    (∀ other otherProtocol, final other otherProtocol =
      if other = destination ∧ otherProtocol = .bgp then goal else known other otherProtocol) ↔
      if protocol = .bgp then value = goal
      else value = known destination protocol ∧ known destination .bgp = goal := by
  constructor
  · intro all
    have here := all destination protocol
    have bgp := all destination .bgp
    rw [effect, if_pos ⟨rfl, rfl⟩] at here
    rw [effect,
      if_pos (show destination = destination ∧ Protocol.bgp = .bgp from ⟨rfl, rfl⟩)] at bgp
    split_ifs with isBgp
    · rwa [if_pos ⟨rfl, isBgp⟩] at here
    rw [if_neg fun both => isBgp both.2] at here
    rw [if_neg fun both => isBgp both.2.symm] at bgp
    exact ⟨here, bgp⟩
  · intro right other otherProtocol
    rw [effect]
    split_ifs at right with isBgp
    · subst isBgp
      rw [right]
    by_cases there : other = destination
    · subst there
      by_cases isProtocol : otherProtocol = protocol
      · subst isProtocol
        simp [isBgp, right.1]
      by_cases isBgp' : otherProtocol = .bgp
      · subst isBgp'
        simp [isProtocol, right.2]
      · simp [isProtocol, isBgp']
    · simp [there]

theorem Route.popped_eq_self {route : Route} {gateways : List IpAddr} :
    ({ route with nextHops := route.nextHops.filter fun hop => hop.gateway ∉ gateways } : Route) =
      route ↔ ∀ gateway ∈ route.gateways, gateway ∉ gateways := by
  have all : (route.nextHops.filter fun hop => hop.gateway ∉ gateways) = route.nextHops ↔
      ∀ gateway ∈ route.gateways, gateway ∉ gateways := by
    simp [List.filter_eq_self, Route.gateways]
  rw [← all]
  constructor
  · exact fun same => congrArg Route.nextHops same
  · intro same
    rw [same]

namespace Withdrawal

variable {destination : IpNet} {gateways : List IpAddr} {route : Route}

theorem remains_eq_some : (nextHops destination gateways).remains route = some route ↔
      route.nextHops ≠ [] ∧ ∀ gateway ∈ route.gateways, gateway ∉ gateways := by
  rw [← Route.popped_eq_self, remains]
  cases left : route.nextHops.filter fun hop => hop.gateway ∉ gateways with
  | nil =>
    simp only [reduceCtorEq, ne_eq, false_iff, not_and]
    exact fun some same => some (congrArg Route.nextHops same).symm
  | cons first rest =>
    rw [Option.some.injEq]
    refine ⟨fun same => ⟨fun none => ?_, same⟩, And.right⟩
    rw [none] at left
    simp at left

theorem gateways_asked : (nextHops destination gateways).asked.2.gateways = gateways := by
  simp [asked, Route.gateways, Function.comp_def]

theorem remains_eq_none : (nextHops destination gateways).remains route = none ↔
      ∀ gateway ∈ route.gateways, gateway ∈ gateways := by
  have none : (route.nextHops.filter fun hop => hop.gateway ∉ gateways) = [] ↔
      ∀ gateway ∈ route.gateways, gateway ∈ gateways := by
    simp [List.filter_eq_nil_iff, Route.gateways]
  rw [← none, remains]
  cases route.nextHops.filter fun hop => hop.gateway ∉ gateways with
  | nil => simp
  | cons first rest => simp

end Withdrawal

namespace Route

variable {route other : Route}

theorem sameHops_eq_panic : route.sameHops other = .panic ↔
    route.nextHops = [] ∧ other.nextHops = [] := by
  unfold sameHops
  split_ifs with length
  · simp only [false_iff, not_and]
    rintro none none'
    simp [none, none'] at length
  rw [not_not] at length
  cases count : route.nextHops.length with
  | zero => simp [List.length_eq_zero_iff.mp count, List.length_eq_zero_iff.mp (length ▸ count)]
  | succ last =>
    simp only [reduceCtorEq, false_iff, not_and]
    intro none
    simp [none] at count

theorem ne_nil_of_sameHops (same : route.sameHops other = .ok true) : other.nextHops ≠ [] := by
  intro none
  unfold sameHops at same
  split_ifs at same with length
  · cases same
  rw [not_not, none, List.length_nil] at length
  rw [length] at same
  cases same

end Route

namespace ChannelState

variable {state : ChannelState} {withdrawal : Withdrawal} {destination : IpNet}
  {gateways : List IpAddr} {request : RequestType × Route}

theorem withdraws_unchanged_iff (running : (state.step request).stopped = false)
    (same : (state.step request).rib = state.rib) :
    state.Withdraws request withdrawal ↔
      (Channel.getRoute state.rib withdrawal.destination .bgp).bind withdrawal.remains =
        Channel.getRoute state.rib withdrawal.destination .bgp := by
  unfold Withdraws
  rw [same, and_iff_right running]
  constructor
  · intro all
    have bgp := all withdrawal.destination .bgp
    rw [if_pos ⟨rfl, rfl⟩] at bgp
    exact bgp.symm
  · intro right other protocol
    split_ifs with here
    · rw [here.1, here.2, right]
    · rfl

theorem untouched_iff : state.rib.Untouched destination gateways ↔
    (Channel.getRoute state.rib destination .bgp).bind
        (Withdrawal.nextHops destination gateways).remains =
      Channel.getRoute state.rib destination .bgp := by
  unfold Rib.Untouched
  cases Channel.getRoute state.rib destination .bgp with
  | none => simp
  | some route =>
    rw [Option.bind_some, Withdrawal.remains_eq_some]
    simp

theorem withdraws_changed_iff {protocol : Protocol} {value : Option Route}
    (running : (state.step request).stopped = false) (effect : ∀ other otherProtocol,
      Channel.getRoute (state.step request).rib other otherProtocol =
        if other = destination ∧ otherProtocol = protocol then value
        else Channel.getRoute state.rib other otherProtocol) :
    state.Withdraws request (.nextHops destination gateways) ↔
      if protocol = .bgp then
        value = (Channel.getRoute state.rib destination .bgp).bind
          (Withdrawal.nextHops destination gateways).remains
      else value = Channel.getRoute state.rib destination protocol ∧
        state.rib.Untouched destination gateways := by
  rw [Withdraws, and_iff_right running, untouched_iff, eq_comm (b :=
    Channel.getRoute _ _ Protocol.bgp)]
  rw [← changed_iff effect]
  refine forall_congr' fun other => forall_congr' fun otherProtocol => ?_
  by_cases here : other = destination ∧ otherProtocol = .bgp
  · rw [if_pos here, if_pos (show other = (Withdrawal.nextHops destination gateways).destination ∧ _
      from here), here.1]
  · rw [if_neg here, if_neg (show ¬(other = (Withdrawal.nextHops destination gateways).destination ∧
      _)
      from here)]

theorem not_withdraws_of_panic {rib : Rib} (running : state.stopped = false)
    (ran : Channel.handle request.1 request.2 state.rib = (.panic, rib)) :
    ¬state.Withdraws request withdrawal := by
  rintro ⟨alive, -⟩
  rw [step_of_panic running ran] at alive
  cases alive

theorem usable_of_refused {request : Route} (empty : request.nextHops = []) {listed : List Route}
    (refused : ∀ other ∈ listed, other.sameHops request = .ok false) :
    ∀ route ∈ listed, route.nextHops ≠ [] := by
  intro route member none
  have panics := Route.sameHops_eq_panic.mpr ⟨none, empty⟩
  rw [refused route member] at panics
  cases panics

theorem withdraws_route_iff (own : state.rib.Own) (running : state.stopped = false) :
    state.Withdraws (Withdrawal.route destination).asked (.route destination) ↔
      state.rib.Withdrawable (.route destination) := by
  have version : (Route.default destination .v4).version = state.rib.ipVersion :=
    own.version_eq.symm
  rcases Rib.remove_cases version with ⟨-, stored, -, -, -, same, -⟩ | ⟨refused, ran⟩ |
    ⟨before, stored, after, split, -, panics, ran⟩
  · exact absurd rfl (Route.ne_nil_of_sameHops same)
  · have taken := @step_of_ok state (Withdrawal.route destination).asked _ _ running ran
    have usable : ∀ route ∈ state.rib.routes destination, route.nextHops ≠ [] :=
      usable_of_refused rfl refused
    rw [withdraws_unchanged_iff (by rw [taken]) (by rw [taken]), Rib.Withdrawable,
      and_iff_left usable]
    dsimp only [Withdrawal.destination]
    cases Channel.getRoute state.rib destination .bgp <;> simp [Withdrawal.remains]
  · have listed : stored ∈ state.rib.routes destination := by
      rw [show state.rib.routes destination = before ++ stored :: after from split]
      simp
    refine iff_of_false (not_withdraws_of_panic running ran) fun able => ?_
    exact able.2 stored listed (Route.sameHops_eq_panic.mp panics).1

theorem withdraws_unspec_iff (own : state.rib.Own) (running : state.stopped = false)
    {existing : Route} (found : Channel.getRoute state.rib destination .unspec = some existing) :
    state.Withdraws (Withdrawal.nextHops destination gateways).asked
      (.nextHops destination gateways) ↔
      (existing.comparable (.default destination .v4) = true →
        ∀ gateway ∈ existing.gateways, gateway ∉ gateways) ∧
      state.rib.Untouched destination gateways := by
  set request := (Withdrawal.nextHops destination gateways).asked.2 with isRequest
  have member := (Keyed.find_eq_some (own.distinct destination)).mp (Rib.getRoute_eq _ _ _ ▸ found)
  have named := own.fits destination existing member.1
  have alike : existing.comparable request = existing.comparable (.default destination .v4) := rfl
  rw [← alike]
  by_cases comparable : existing.comparable request = true
  · set changed : Route := { existing with
      nextHops := existing.nextHops.filter fun hop => hop.gateway ∉ request.gateways } with
        isChanged
    have popped : existing.popMultipath request = .ok changed := if_pos comparable
    have version : changed.version = state.rib.ipVersion := by
      rw [own.version_eq]
      simp only [Route.comparable, Bool.and_eq_true, beq_iff_eq] at comparable
      exact comparable.1.1.1.1.1.2
    rcases Rib.insert_eq version destination with ⟨best, others, result, list, ran, -⟩
    have registered : Channel.registerRoute changed state.rib =
        Rib.insert destination changed state.rib :=
      congrArg (fun key => Rib.insert key changed state.rib) named
    have taken := @step_of_ok state (Withdrawal.nextHops destination gateways).asked _ _ running
      ((Channel.combine_of_changed found popped).trans (registered.trans ran))
    have effect := fun other protocol =>
      @Rib.getRoute_ranked state.rib changed destination own other protocol
    rw [list] at effect
    rw [withdraws_changed_iff (by rw [taken]) (by rw [taken]; exact effect)]
    have different : ¬changed.protocol = .bgp := by simp [isChanged, member.2]
    have same : some changed = Channel.getRoute state.rib destination changed.protocol ↔
        ∀ gateway ∈ existing.gateways, gateway ∉ gateways := by
      rw [show changed.protocol = .unspec from member.2, found, Option.some.injEq, isChanged,
        isRequest, Withdrawal.gateways_asked, Route.popped_eq_self]
    rw [if_neg different, same, forall_prop_of_true comparable]
  · have kept : existing.popMultipath request = .error .multipathIsNotEqual := if_neg comparable
    have taken := @step_of_error state (Withdrawal.nextHops destination gateways).asked _ _ running
      (Channel.combine_of_refused found kept)
    rw [withdraws_unchanged_iff (by rw [taken]) (by rw [taken]),
      and_iff_right fun isComparable => absurd isComparable comparable, untouched_iff]
    rfl

theorem withdraws_missing_iff (own : state.rib.Own) (running : state.stopped = false)
    (missing : Channel.getRoute state.rib destination .unspec = none) :
    state.Withdraws (Withdrawal.nextHops destination gateways).asked
      (.nextHops destination gateways) ↔
      (gateways = [] → ∀ route ∈ state.rib.routes destination, route.nextHops ≠ []) ∧
      match (state.rib.routes destination).find? fun route =>
        route.sameHops (Withdrawal.nextHops destination gateways).asked.2 = .ok true with
      | some route => route.protocol = .bgp ∧ ∀ gateway ∈ route.gateways, gateway ∈ gateways
      | none => state.rib.Untouched destination gateways := by
  set request := (Withdrawal.nextHops destination gateways).asked.2 with isRequest
  have hops : request.nextHops = [] ↔ gateways = [] := by simp [isRequest, Withdrawal.asked]
  have version : request.version = state.rib.ipVersion := own.version_eq.symm
  have combined : Channel.handle .deleteMultiPath request state.rib =
      Channel.removeRoute request state.rib := Channel.combine_of_missing missing
  rcases Rib.remove_cases version with ⟨before, stored, after, split, refused, same, ran⟩ |
    ⟨refused, ran⟩ | ⟨before, stored, after, split, -, panics, ran⟩
  · have taken := @step_of_ok state (Withdrawal.nextHops destination gateways).asked _ _ running
      (combined.trans ran)
    have effect := fun other protocol => Rib.getRoute_removed own split other protocol
    have first : (state.rib.routes destination).find? (fun route => route.sameHops request =
        .ok true) =
        some stored := by
      have none : before.find? (fun route => route.sameHops request = .ok true) = none := by
        refine List.find?_eq_none.mpr fun route member => ?_
        rw [refused route member]
        simp
      rw [show state.rib.routes destination = before ++ stored :: after from split,
        List.find?_append,
        none, List.find?_cons, same]
      rfl
    have found : Channel.getRoute state.rib destination stored.protocol = some stored := by
      rw [Rib.getRoute_eq]
      refine (Keyed.find_eq_some (own.distinct destination)).mpr ⟨?_, rfl⟩
      rw [show state.rib.routes destination = before ++ stored :: after from split]
      simp
    have some : gateways ≠ [] := fun none => Route.ne_nil_of_sameHops same (hops.mpr none)
    rw [withdraws_changed_iff (by rw [taken]) (by rw [taken]; exact effect), first,
      and_iff_right (absurd · some)]
    dsimp only
    by_cases isBgp : stored.protocol = .bgp
    · rw [isBgp] at found
      rw [if_pos isBgp, found, Option.bind_some, eq_comm, Withdrawal.remains_eq_none,
        and_iff_right isBgp]
    · rw [if_neg isBgp, found]
      simp [isBgp]
  · have taken := @step_of_ok state (Withdrawal.nextHops destination gateways).asked _ _ running
      (combined.trans ran)
    have none : (state.rib.routes destination).find? (fun route => route.sameHops request =
        .ok true) =
        none := by
      refine List.find?_eq_none.mpr fun route member => ?_
      rw [refused route member]
      simp
    have usable : gateways = [] → ∀ route ∈ state.rib.routes destination, route.nextHops ≠ [] :=
      fun empty => usable_of_refused (hops.mpr empty) refused
    rw [withdraws_unchanged_iff (by rw [taken]) (by rw [taken]), none, untouched_iff,
      and_iff_right usable]
    rfl
  · have listed : stored ∈ state.rib.routes destination := by
      rw [show state.rib.routes destination = before ++ stored :: after from split]
      simp
    rcases Route.sameHops_eq_panic.mp panics with ⟨noHops, empty⟩
    refine iff_of_false (not_withdraws_of_panic running (combined.trans ran)) fun able => ?_
    exact able.1 (hops.mp empty) stored listed noHops

/-- A withdrawal is handled as it should be exactly under the condition. -/
theorem withdraws_iff_withdrawable (parse : String → Option IpAddr) (table : UInt32)
    (requests : List (RequestType × Route)) (withdrawal : Withdrawal) :
    (∃ request, BgpSubscriber.serve parse (withdrawal.toFib table) = .ok request ∧
      ((new .v4).run requests).Withdraws request withdrawal) ↔
    ((new .v4).run requests).stopped = false ∧
      ((new .v4).run requests).rib.Withdrawable withdrawal := by
  rw [Withdrawal.serve_toFib]
  have own := (run_ordered .v4 requests).each
  generalize (new .v4).run requests = state at own
  have served : (∃ request, Except.ok withdrawal.asked = (.ok request : Except Refusal _) ∧
      state.Withdraws request withdrawal) ↔ state.Withdraws withdrawal.asked withdrawal := by
    simp
  rw [served]
  cases running : state.stopped with
  | true =>
    refine iff_of_false (fun withdraws => ?_) (by simp)
    have alive := withdraws.1
    rw [step, if_pos running, running] at alive
    cases alive
  | false =>
    rw [and_iff_right rfl]
    cases withdrawal with
    | route destination => exact withdraws_route_iff own running
    | nextHops destination gateways =>
      unfold Rib.Withdrawable
      dsimp only
      cases found : Channel.getRoute state.rib destination .unspec with
      | none => exact withdraws_missing_iff own running found
      | some existing => exact withdraws_unspec_iff own running found

def sampleMessage : Sart.Route where
  table := 254
  version := 2
  destination := sampleNet
  protocol := 186
  scope := 0
  type := 1
  nextHops := [⟨.v4 1, 1, 0, 0⟩]
  source := ""
  ad := 20
  priority := 20
  ibgp := false

/-- The route of the BGP daemon stays when it is withdrawn. -/
theorem not_withdraws_sampleMessage :
    BgpSubscriber.serve (fun _ => none) (.addRoute 254 2 sampleMessage true) =
      .ok (.add, sampleRoute [sampleHop 1] .ebgp) ∧
    ¬∃ request, BgpSubscriber.serve (fun _ => none) (.deleteRoute 254 2 sampleNet) = .ok request ∧
      ((new .v4).run [(.add, sampleRoute [sampleHop 1] .ebgp)]).Withdraws request
        (.route sampleNet) := by
  refine ⟨rfl, ?_⟩
  rintro ⟨request, served, -, effect⟩
  cases served
  exact absurd (effect sampleNet .bgp) (by decide)

end ChannelState

end Sart.Fib
