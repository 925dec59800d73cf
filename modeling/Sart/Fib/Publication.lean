import Sart.Fib.Channel
import Sart.Lib.Run

/-!
# Publications of a channel

Who follows the publications of a channel is to know the best route of every destination.
A best route that is replaced by a worse one of its own protocol is not published, and a
request to delete next hops is published even if the last route has gone, or is left
without next hops.
-/

namespace Sart.Fib

open Sart.Lib

def learn (destination : IpNet) (known : Option Route) (publication : RequestType × Route) :
    Option Route :=
  if publication.2.destination = destination then
    if publication.1 = .delete then none else some publication.2
  else known

def replay (publications : List (RequestType × Route)) (destination : IpNet) : Option Route :=
  publications.foldl (learn destination) none

structure ChannelState.PublishesBest (state : ChannelState) : Prop where
  running : state.stopped = false
  known : ∀ destination, replay state.publications destination = state.rib.getPublished destination
  usable : ∀ publication ∈ state.publications, publication.2.nextHops ≠ []

namespace Rib

def Accepts (rib : Rib) (route : Route) : Prop :=
  route.version = rib.ipVersion ∧ route.nextHops ≠ []

/-- The best route is replaced by a worse one, and all others are worse than it, too. -/
def Demotes (rib : Rib) (route : Route) : Prop :=
  match rib.routes route.destination with
  | [] => False
  | old :: rest =>
    old.protocol = route.protocol ∧ old.ad.value < route.ad.value ∧
      ∀ other ∈ rest, old.ad.value < other.ad.value

/-- The condition on a request.  The best route is not demoted by its own protocol.  A request to
delete next hops leaves one, or, without a route of its protocol, does not remove the only route. -/
def Consistent (rib : Rib) (request : RequestType × Route) : Prop :=
  match request.1 with
  | .add | .replace => ¬rib.Demotes request.2
  | .addMultiPath | .delete => True
  | .deleteMultiPath =>
    match Channel.getRoute rib request.2.destination request.2.protocol with
    | some existing =>
      existing.comparable request.2 = true →
        ∃ hop ∈ existing.nextHops, hop.gateway ∉ request.2.gateways
    | none =>
      ∀ only, rib.routes request.2.destination = [only] → only.sameHops request.2 ≠ .ok true

/-- Every route is under its own destination and has a next hop. -/
abbrev Sound (rib : Rib) : Prop :=
  rib.Each rib.ipVersion fun destination route =>
    route.destination = destination ∧ route.nextHops ≠ []

structure Follows (rib final : Rib) (publications : List (RequestType × Route)) : Prop where
  version : final.ipVersion = rib.ipVersion
  known : ∀ destination, publications.foldl (learn destination) (rib.routes destination).head? =
    (final.routes destination).head?
  usable : ∀ publication ∈ publications, publication.2.nextHops ≠ []

variable {rib final : Rib} {route existing : Route} {request : RequestType}

theorem Follows.refl (rib : Rib) : Follows rib rib [] := ⟨rfl, fun _ => rfl, by simp⟩

variable {destination : IpNet} {protocol : Protocol}

theorem follows_best {best : Route} {listed : List Route} (own : best.destination = destination)
    (usable : best.nextHops ≠ []) (sets : request ≠ .delete) :
    Follows rib (rib.write destination (best :: listed)) [(request, best)] := by
  refine ⟨rfl, fun other => ?_, by simpa using usable⟩
  rw [List.foldl_cons, List.foldl_nil, learn, routes_write, if_neg sets, own]
  by_cases same : other = destination
  · rw [if_pos same, if_pos same.symm]
    rfl
  · rw [if_neg same, if_neg (Ne.symm same)]

theorem getRoute_eq_some (sound : rib.Sound)
    (found : Channel.getRoute rib destination protocol = some existing) :
    existing ∈ rib.routes destination ∧ existing.protocol = protocol := by
  rw [getRoute_eq] at found
  exact (Keyed.find_eq_some (sound.distinct destination)).mp found

theorem not_demotes_le (sound : rib.Sound) (kept : ¬rib.Demotes route) {old : Route}
    {rest : List Route} (before : rib.routes route.destination = old :: rest) :
    ∃ stored ∈ ranked route (old :: rest), stored.ad.value ≤ old.ad.value := by
  have distinct := sound.distinct route.destination
  rw [before] at distinct
  simp only [Demotes, before] at kept
  by_cases same : old.protocol = route.protocol
  · by_cases worse : old.ad.value < route.ad.value
    · push Not at kept
      rcases kept same worse with ⟨other, member, better⟩
      refine ⟨other, (mem_ranked distinct).mpr (.inr ⟨List.mem_cons_of_mem _ member, ?_⟩), better⟩
      exact same ▸ distinct.ne_of_mem member
    · exact ⟨route, (mem_ranked distinct).mpr (.inl rfl), Nat.le_of_not_lt worse⟩
  · exact ⟨old, (mem_ranked distinct).mpr (.inr ⟨List.mem_cons_self, same⟩), Nat.le_refl _⟩

theorem registerRoute_follows (sound : rib.Sound) (accepts : rib.Accepts route)
    (kept : ¬rib.Demotes route) (sets : request ≠ .delete) :
    ∃ result final, Channel.registerRoute route rib = (.ok result, final) ∧ final.Sound ∧
      Follows rib final (Channel.published request result) := by
  rcases insert_eq accepts.1 route.destination with ⟨best, others, result, sorted, ran, report⟩
  have sound' := sound.ranked ⟨rfl, accepts.2⟩
  rw [sorted] at sound'
  have member : best ∈ (rib.write route.destination (best :: others)).routes route.destination := by
    rw [routes_write, if_pos rfl]
    exact List.mem_cons_self
  rcases sound'.fits _ best member with ⟨own, usable⟩
  refine ⟨result, _, ran, sound', ?_⟩
  rcases report with ⟨-, rfl⟩ | ⟨old, rest, before, rfl⟩
  · exact follows_best own usable sets
  rcases not_demotes_le sound kept before with ⟨stored, found, better⟩
  rw [← before] at found
  rw [if_neg (Nat.not_lt.mpr ((head_ranked_le sorted found).trans better))]
  exact follows_best own usable (by simp)

theorem comparable_iff {other : Route} : existing.comparable other = true ↔
    existing.destination = other.destination ∧ existing.version = other.version ∧
      existing.protocol = other.protocol ∧ existing.scope = other.scope ∧
      existing.kind = other.kind ∧ existing.ad = other.ad ∧ existing.table = other.table := by
  simp [Route.comparable, and_assoc]

theorem not_demotes_of_listed (sound : rib.Sound) (member : existing ∈ rib.routes route.destination)
    (protocol : existing.protocol = route.protocol) (ad : existing.ad = route.ad) :
    ¬rib.Demotes route := by
  have distinct := sound.distinct route.destination
  unfold Demotes
  cases before : rib.routes route.destination with
  | nil => exact id
  | cons old rest =>
    rintro ⟨same, worse, -⟩
    rw [before] at member distinct
    rcases List.mem_cons.mp member with rfl | later
    · rw [ad] at worse
      exact absurd worse (Nat.lt_irrefl _)
    · exact distinct.ne_of_mem later (protocol.trans same.symm)

theorem registerRoute_changed (sound : rib.Sound)
    (found : Channel.getRoute rib destination protocol = some existing)
    (version : existing.version = rib.ipVersion) {hops : List NextHop} (usable : hops ≠ [])
    (sets : request ≠ .delete) :
    ∃ result final, Channel.registerRoute { existing with nextHops := hops } rib =
      (.ok result, final) ∧ final.Sound ∧ Follows rib final (Channel.published request result) := by
  rcases getRoute_eq_some sound found with ⟨member, -⟩
  have own := (sound.fits destination existing member).1
  rw [← own] at member
  exact registerRoute_follows sound ⟨version, usable⟩ (not_demotes_of_listed sound member rfl rfl)
    sets

theorem not_demotes_of_missing
    (missing : Channel.getRoute rib route.destination route.protocol = none) :
    ¬rib.Demotes route := by
  unfold Demotes
  cases before : rib.routes route.destination with
  | nil => exact id
  | cons old rest =>
    rintro ⟨same, -, -⟩
    rw [getRoute_eq, before] at missing
    exact Keyed.find_eq_none.mp missing old List.mem_cons_self same

theorem removeRoute_follows (sound : rib.Sound) (accepts : rib.Accepts route)
    (last : request ≠ .delete → ∀ only, rib.routes route.destination = [only] →
      only.sameHops route ≠ .ok true) :
    ∃ result final, Channel.removeRoute route rib = (.ok result, final) ∧ final.Sound ∧
      Follows rib final (Channel.published request result) := by
  rcases remove_cases accepts.1 with ⟨before, stored, after, split, -, same, ran⟩ | ⟨-, ran⟩ |
    ⟨-, stored, -, -, -, panics, -⟩
  · refine ⟨_, _, ran, sound.removed split, ?_⟩
    rcases before with _ | ⟨first, others⟩
    · rcases after with _ | ⟨next, rest⟩
      · have removes : request = .delete := by
          by_contra other
          exact last other stored split same
        have own := sound.fits route.destination stored (by simp [split])
        subst removes
        refine ⟨rfl, fun destination => ?_, by simpa [Channel.published, removal] using own.2⟩
        rw [routes_write]
        by_cases same : destination = route.destination
        · simp [Channel.published, removal, learn, own.1, same]
        · simp [Channel.published, removal, learn, own.1, same, Ne.symm same]
      · have own := sound.fits route.destination next (by simp [split])
        exact follows_best own.1 own.2 (by simp)
    · refine ⟨rfl, fun destination => ?_, by simp [Channel.published, removal]⟩
      rw [routes_write]
      by_cases same : destination = route.destination
      · simp [Channel.published, removal, same, split]
      · simp [Channel.published, removal, same]
  · exact ⟨none, rib, ran, sound, Follows.refl rib⟩
  · rcases sameHops_of_ne accepts.2 stored with ⟨answer, returned⟩
    rw [returned] at panics
    cases panics

theorem handle_follows (sound : rib.Sound) (accepts : rib.Accepts route)
    (consistent : rib.Consistent (request, route)) :
    (∃ cause, Channel.handle request route rib = (.error cause, rib)) ∨
      ∃ result final, Channel.handle request route rib = (.ok result, final) ∧ final.Sound ∧
        Follows rib final (Channel.published request result) := by
  cases request with
  | add | replace => exact .inr (registerRoute_follows sound accepts consistent (by decide))
  | delete => exact .inr (removeRoute_follows sound accepts fun other => absurd rfl other)
  | addMultiPath =>
    unfold Channel.handle
    cases found : Channel.getRoute rib route.destination route.protocol with
    | none =>
      rw [Channel.combine_of_missing found]
      exact .inr (registerRoute_follows sound accepts (not_demotes_of_missing found) (by decide))
    | some existing =>
      by_cases alike : existing.comparable route = true
      · have version := (comparable_iff.mp alike).2.1.trans accepts.1
        have usable := (sound.fits _ existing (getRoute_eq_some sound found).1).2
        rw [Channel.combine_of_changed found (if_pos alike)]
        exact .inr (registerRoute_changed sound found version (by simp [usable]) (by decide))
      · exact .inl ⟨_, Channel.combine_of_refused found (if_neg alike)⟩
  | deleteMultiPath =>
    unfold Consistent at consistent
    unfold Channel.handle
    dsimp only at consistent ⊢
    cases found : Channel.getRoute rib route.destination route.protocol with
    | none =>
      rw [found] at consistent
      rw [Channel.combine_of_missing found]
      exact .inr (removeRoute_follows sound accepts fun _ => consistent)
    | some existing =>
      rw [found] at consistent
      by_cases alike : existing.comparable route = true
      · have version := (comparable_iff.mp alike).2.1.trans accepts.1
        rcases consistent alike with ⟨hop, member, remains⟩
        have usable : hop ∈ existing.nextHops.filter fun hop => hop.gateway ∉ route.gateways :=
          List.mem_filter.mpr ⟨member, by simpa using remains⟩
        rw [Channel.combine_of_changed found (if_pos alike)]
        exact .inr (registerRoute_changed sound found version (List.ne_nil_of_mem usable)
          (by decide))
      · exact .inl ⟨_, Channel.combine_of_refused found (if_neg alike)⟩

end Rib

namespace ChannelState

structure Invariant (ipVersion : IpVersion) (state : ChannelState) : Prop extends
    state.PublishesBest where
  version : state.rib.ipVersion = ipVersion
  sound : state.rib.Sound

theorem invariant_new (ipVersion : IpVersion) : (new ipVersion).Invariant ipVersion where
  running := rfl
  known _ := rfl
  usable := by simp [new]
  version := rfl
  sound := ⟨rfl, fun destination => by simp [new, Rib.routes_new, Distinct, Keyed.Distinct],
    fun destination => by simp [new, Rib.routes_new]⟩

theorem Invariant.step {ipVersion : IpVersion} {state : ChannelState}
    {request : RequestType × Route} (invariant : state.Invariant ipVersion)
    (specified : request.2.version = ipVersion ∧ request.2.nextHops ≠ [])
    (consistent : state.rib.Consistent request) : (state.step request).Invariant ipVersion := by
  have accepts : state.rib.Accepts request.2 :=
    ⟨specified.1.trans invariant.version.symm, specified.2⟩
  rcases Rib.handle_follows invariant.sound accepts consistent with
    ⟨cause, ran⟩ | ⟨result, final, ran, sound, follows⟩
  · rw [step_of_error invariant.running ran]
    exact ⟨⟨rfl, invariant.known, invariant.usable⟩, invariant.version, invariant.sound⟩
  rw [step_of_ok invariant.running ran]
  refine ⟨⟨rfl, fun destination => ?_, ?_⟩, follows.version.trans invariant.version,
    sound⟩
  · have before := invariant.known destination
    rw [Rib.getPublished_eq, replay] at before
    rw [Rib.getPublished_eq, replay, List.foldl_append, before]
    exact follows.known destination
  · exact List.forall_mem_append.mpr ⟨invariant.usable, follows.usable⟩

/-- In every run whose requests meet the condition, the best routes are known from what was
published, and every published route has a next hop. -/
theorem publishesBest_of_consistent {ipVersion : IpVersion} {requests : List (RequestType × Route)}
    (specified : ∀ request ∈ requests, request.2.version = ipVersion ∧ request.2.nextHops ≠ [])
    (consistent : AllSteps step (fun state request => state.rib.Consistent request)
      (new ipVersion) requests) : ((new ipVersion).run requests).PublishesBest :=
  (foldl_invariant (Invariant ipVersion)
    (fun _ _ invariant good => invariant.step good.1 good.2)
    (invariant_new ipVersion) ((allSteps_of_forall specified).and consistent)).toPublishesBest

end ChannelState

def sampleRequests : List (RequestType × Route) :=
  [(.add, sampleRoute [sampleHop 1] .ebgp), (.addMultiPath, sampleRoute [sampleHop 2] .ebgp),
    (.deleteMultiPath, sampleRoute [sampleHop 1] .ebgp), (.delete, sampleRoute [sampleHop 2] .ebgp)]

theorem publishesBest_sampleRequests :
    ((ChannelState.new .v4).run sampleRequests).publications.length = 4 ∧
      ((ChannelState.new .v4).run sampleRequests).PublishesBest := by
  refine ⟨by decide, ChannelState.publishesBest_of_consistent (by decide) ⟨id, trivial, ?_, trivial,
    trivial⟩⟩
  exact fun _ => ⟨sampleHop 2, by decide, by decide⟩

/-- An external route becomes an internal one. -/
theorem not_publishesBest_of_internal :
    ¬((ChannelState.new .v4).run [(.add, sampleRoute [sampleHop 1] .ebgp),
      (.add, sampleRoute [sampleHop 1] .ibgp)]).PublishesBest := by
  intro best
  exact absurd (best.known sampleNet) (by decide)

end Sart.Fib
