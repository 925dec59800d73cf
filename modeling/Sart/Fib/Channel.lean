import Sart.Fib.Route
import Sart.Lib.Keyed
import Sart.Lib.Table

/-!
# Channels of the FIB daemon

A channel keeps the routes of all protocols in one table, with the routes of a destination
in the order of their administrative distance.  The first one is published.  A panic ends
the loop of a channel.
-/

namespace Sart.Fib

open Sart.Lib

inductive RequestType where
  | add
  | delete
  | replace
  | addMultiPath
  | deleteMultiPath
  deriving DecidableEq

structure Rib where
  ipVersion : IpVersion
  table : AList fun _ : IpNet => List Route

def Route.Le (left right : Route) : Prop := left.ad.value ≤ right.ad.value

instance : DecidableRel Route.Le :=
  fun left right => inferInstanceAs (Decidable (left.ad.value ≤ right.ad.value))

namespace Rib

def new (ipVersion : IpVersion) : Rib := ⟨ipVersion, ∅⟩

def write (rib : Rib) (destination : IpNet) (routes : List Route) : Rib :=
  { rib with table := rib.table.insert destination routes }

/-- The routes of a destination with a new one among them, the best one first.  It takes the place
of the one of its protocol. -/
def ranked (route : Route) (routes : List Route) : List Route :=
  (Keyed.upsert Route.protocol route routes).insertionSort Route.Le

def insert (destination : IpNet) (route : Route) : Effect Rib Error (Option (Route × Bool)) :=
  fun rib =>
    if route.version ≠ rib.ipVersion then (.ok none, rib)
    else
      match rib.table.lookup destination with
      | some (oldPublished :: rest) =>
        match ranked route (oldPublished :: rest) with
        | [] => (.panic, rib.write destination [])
        | newPublished :: others =>
          if oldPublished.ad.value < newPublished.ad.value then
            (.ok none, rib.write destination (newPublished :: others))
          else (.ok (some (newPublished, true)), rib.write destination (newPublished :: others))
      | some [] => (.ok (some (route, false)), rib.write destination [route])
      | none => (.ok (some (route, false)), rib.write destination [route])

def get (rib : Rib) (destination : IpNet) : Option (List Route) := rib.table.lookup destination

def getPublished (rib : Rib) (destination : IpNet) : Option Route :=
  (rib.table.lookup destination).bind List.head?

/-- The first route with the next hops of the given one goes, whatever its protocol. -/
def remove (route : Route) : Effect Rib Error (Option (Route × Bool)) := fun rib =>
  if route.version ≠ rib.ipVersion then (.ok none, rib)
  else
    match rib.table.lookup route.destination with
    | some (published :: rest) =>
      match Outcome.position (fun stored => stored.sameHops route) (published :: rest) with
      | .ok (some 0) =>
        match rest with
        | next :: _ => (.ok (some (next, true)), rib.write route.destination rest)
        | [] => (.ok (some (published, false)), rib.write route.destination rest)
      | .ok (some (index + 1)) =>
        (.ok none, rib.write route.destination (published :: rest.eraseIdx index))
      | .ok none => (.ok none, rib)
      | .error cause => (.error cause, rib)
      | .panic => (.panic, rib)
    | some [] => (.ok none, rib)
    | none => (.ok none, rib)

end Rib

namespace Channel

def getRoute (rib : Rib) (destination : IpNet) (protocol : Protocol) : Option Route :=
  (rib.get destination).bind fun routes => Keyed.find Route.protocol routes protocol

def registerRoute (route : Route) : Effect Rib Error (Option (Route × Bool)) :=
  Rib.insert route.destination route

def removeRoute (route : Route) : Effect Rib Error (Option (Route × Bool)) := fun rib =>
  match rib.get route.destination with
  | some (_ :: _) => Rib.remove route rib
  | some [] => (.ok none, rib)
  | none => (.ok none, rib)

def combine (rib : Rib) (route : Route) (change : Route → Route → Except Error Route)
    (otherwise : Route → Effect Rib Error (Option (Route × Bool))) :
    Outcome Error (Option (Route × Bool)) × Rib :=
  match getRoute rib route.destination route.protocol with
  | some existing =>
    match change existing route with
    | .ok changed => registerRoute changed rib
    | .error cause => (.error cause, rib)
  | none => otherwise route rib

variable {rib : Rib} {route existing changed : Route} {change : Route → Route → Except Error Route}
  {otherwise : Route → Effect Rib Error (Option (Route × Bool))}

theorem combine_of_changed (found : getRoute rib route.destination route.protocol = some existing)
    (made : change existing route = .ok changed) :
    combine rib route change otherwise = registerRoute changed rib := by
  unfold combine
  rw [found]
  dsimp only
  rw [made]

theorem combine_of_refused {cause : Error}
    (found : getRoute rib route.destination route.protocol = some existing)
    (refused : change existing route = .error cause) :
    combine rib route change otherwise = (.error cause, rib) := by
  unfold combine
  rw [found]
  dsimp only
  rw [refused]

theorem combine_of_missing (missing : getRoute rib route.destination route.protocol = none) :
    combine rib route change otherwise = otherwise route rib := by
  unfold combine
  rw [missing]

def handle (request : RequestType) (route : Route) : Effect Rib Error (Option (Route × Bool)) :=
  fun rib =>
    match request with
    | .add | .replace => registerRoute route rib
    | .addMultiPath => combine rib route Route.mergeMultipath registerRoute
    | .delete => removeRoute route rib
    | .deleteMultiPath => combine rib route Route.popMultipath removeRoute

def published (request : RequestType) : Option (Route × Bool) → List (RequestType × Route)
  | some (route, replace) => [(if replace then .replace else request, route)]
  | none => []

end Channel

structure ChannelState where
  rib : Rib
  publications : List (RequestType × Route)
  stopped : Bool

namespace ChannelState

def new (ipVersion : IpVersion) : ChannelState := ⟨.new ipVersion, [], false⟩

def step (state : ChannelState) (request : RequestType × Route) : ChannelState :=
  if state.stopped then state
  else
    match Channel.handle request.1 request.2 state.rib with
    | (.ok result, rib) =>
      { state with
        rib := rib
        publications := state.publications ++ Channel.published request.1 result }
    | (.error _, rib) => { state with rib := rib }
    | (.panic, rib) => { state with rib := rib, stopped := true }

variable {state : ChannelState} {request : RequestType × Route} {rib : Rib}

theorem step_of_ok {result : Option (Route × Bool)} (running : state.stopped = false)
    (ran : Channel.handle request.1 request.2 state.rib = (.ok result, rib)) :
    state.step request =
      ⟨rib, state.publications ++ Channel.published request.1 result, false⟩ := by
  rw [step, if_neg (by simp [running]), ran, ← running]

theorem step_of_error {cause : Error} (running : state.stopped = false)
    (ran : Channel.handle request.1 request.2 state.rib = (.error cause, rib)) :
    state.step request = ⟨rib, state.publications, false⟩ := by
  rw [step, if_neg (by simp [running]), ran, ← running]

theorem step_of_panic (running : state.stopped = false)
    (ran : Channel.handle request.1 request.2 state.rib = (.panic, rib)) :
    state.step request = ⟨rib, state.publications, true⟩ := by
  rw [step, if_neg (by simp [running]), ran]

def run (state : ChannelState) (requests : List (RequestType × Route)) : ChannelState :=
  requests.foldl step state

end ChannelState

instance : Std.Total Route.Le := ⟨fun left right => Nat.le_total left.ad.value right.ad.value⟩

instance : IsTrans Route Route.Le := ⟨fun _ _ _ => Nat.le_trans⟩

abbrev Distinct (routes : List Route) : Prop := Keyed.Distinct Route.protocol routes

namespace Rib

def routes (rib : Rib) (destination : IpNet) : List Route :=
  (rib.table.lookup destination).getD []

variable {rib : Rib} {route stored : Route} {destination : IpNet} {listed : List Route}

theorem routes_new (ipVersion : IpVersion) (destination : IpNet) :
    (new ipVersion).routes destination = [] := rfl

theorem routes_write (rib : Rib) (destination : IpNet) (listed : List Route) (other : IpNet) :
    (rib.write destination listed).routes other =
      if other = destination then listed else rib.routes other := by
  unfold Rib.routes write
  rw [Table.lookup_insert]
  split_ifs <;> rfl

theorem getPublished_eq (rib : Rib) (destination : IpNet) :
    rib.getPublished destination = (rib.routes destination).head? := by
  unfold getPublished Rib.routes
  cases rib.table.lookup destination <;> rfl

theorem getRoute_eq (rib : Rib) (destination : IpNet) (protocol : Protocol) :
    Channel.getRoute rib destination protocol =
      Keyed.find Route.protocol (rib.routes destination) protocol := by
  unfold Channel.getRoute Rib.get Rib.routes
  cases rib.table.lookup destination <;> rfl

theorem perm_ranked (route : Route) (listed : List Route) :
    (ranked route listed).Perm (Keyed.upsert Route.protocol route listed) :=
  List.perm_insertionSort _ _

theorem mem_ranked (distinct : Distinct listed) :
    stored ∈ ranked route listed ↔
      stored = route ∨ stored ∈ listed ∧ stored.protocol ≠ route.protocol := by
  rw [(perm_ranked route listed).mem_iff, Keyed.mem_upsert distinct]

theorem distinct_ranked (distinct : Distinct listed) : Distinct (ranked route listed) :=
  ((perm_ranked route listed).map _).nodup_iff.mpr distinct.upsert

theorem ranked_ne_nil (route : Route) (listed : List Route) : ranked route listed ≠ [] := by
  intro none
  refine Keyed.upsert_ne_nil Route.protocol route listed (List.eq_nil_of_length_eq_zero ?_)
  rw [← (perm_ranked route listed).length_eq, none, List.length_nil]

theorem head_ranked_le {best : Route} {others : List Route}
    (sorted : ranked route listed = best :: others) (member : stored ∈ ranked route listed) :
    best.ad.value ≤ stored.ad.value := by
  have ordered : (ranked route listed).Pairwise Route.Le := List.pairwise_insertionSort _ _
  rw [sorted] at ordered member
  rcases List.mem_cons.mp member with rfl | later
  · exact Nat.le_refl _
  · exact List.rel_of_pairwise_cons ordered later

theorem insert_eq (version : route.version = rib.ipVersion) (destination : IpNet) :
    ∃ best others result, ranked route (rib.routes destination) = best :: others ∧
      insert destination route rib = (.ok result, rib.write destination (best :: others)) ∧
      (rib.routes destination = [] ∧ result = some (best, false) ∨
        ∃ old rest, rib.routes destination = old :: rest ∧
          result = if old.ad.value < best.ad.value then none else some (best, true)) := by
  have known : ¬route.version ≠ rib.ipVersion := not_not.mpr version
  unfold insert Rib.routes
  rw [if_neg known]
  cases found : rib.table.lookup destination with
  | none => exact ⟨route, [], some (route, false), rfl, rfl, .inl ⟨rfl, rfl⟩⟩
  | some listed =>
    cases listed with
    | nil => exact ⟨route, [], some (route, false), rfl, rfl, .inl ⟨rfl, rfl⟩⟩
    | cons old rest =>
      rw [Option.getD_some]
      cases sorted : ranked route (old :: rest) with
      | nil => exact absurd sorted (ranked_ne_nil route (old :: rest))
      | cons best others =>
        refine ⟨best, others, if old.ad.value < best.ad.value then none else some (best, true),
          rfl, ?_, .inr ⟨old, rest, rfl, rfl⟩⟩
        dsimp only
        rw [sorted]
        dsimp only
        split_ifs <;> rfl

def removal (before : List Route) (stored : Route) (after : List Route) : Option (Route × Bool) :=
  match before, after with
  | [], next :: _ => some (next, true)
  | [], [] => some (stored, false)
  | _ :: _, _ => none

theorem sameHops_of_ne {other : Route} (hops : other.nextHops ≠ []) (route : Route) :
    ∃ same, route.sameHops other = .ok same := by
  unfold Route.sameHops
  split_ifs with length
  · exact ⟨false, rfl⟩
  rw [not_not] at length
  cases count : route.nextHops.length with
  | zero => exact absurd (List.length_eq_zero_iff.mp (length.symm.trans count)) hops
  | succ last => exact ⟨_, rfl⟩

theorem remove_cases (version : route.version = rib.ipVersion) :
    (∃ before stored after, rib.routes route.destination = before ++ stored :: after ∧
      (∀ other ∈ before, other.sameHops route = .ok false) ∧ stored.sameHops route = .ok true ∧
      Channel.removeRoute route rib =
        (.ok (removal before stored after), rib.write route.destination (before ++ after))) ∨
    ((∀ other ∈ rib.routes route.destination, other.sameHops route = .ok false) ∧
      Channel.removeRoute route rib = (.ok none, rib)) ∨
    ∃ before stored after, rib.routes route.destination = before ++ stored :: after ∧
      (∀ other ∈ before, other.sameHops route = .ok false) ∧ stored.sameHops route = .panic ∧
      Channel.removeRoute route rib = (.panic, rib) := by
  have known : ¬route.version ≠ rib.ipVersion := not_not.mpr version
  have calm : ∀ other : Route, ∀ cause, other.sameHops route ≠ .error cause := by
    intro other cause
    unfold Route.sameHops
    split_ifs
    · simp
    · split <;> simp
  unfold Channel.removeRoute Rib.get Rib.routes remove
  rw [if_neg known]
  cases found : rib.table.lookup route.destination with
  | none => exact .inr (.inl ⟨by simp, rfl⟩)
  | some listed =>
    cases listed with
    | nil => exact .inr (.inl ⟨by simp, rfl⟩)
    | cons published rest =>
      dsimp only
      rcases Outcome.position_cases (fun stored => stored.sameHops route) (published :: rest) with
        ⟨before, stored, after, split, refused, accepted, index⟩ | ⟨refused, index⟩ |
        ⟨before, stored, after, split, refused, ⟨panics, index⟩ | ⟨cause, fails, -⟩⟩
      · refine .inl ⟨before, stored, after, split, refused, accepted, ?_⟩
        rw [index]
        cases before with
        | nil =>
          rcases List.cons_eq_cons.mp split with ⟨rfl, rfl⟩
          cases rest <;> rfl
        | cons first others =>
          rcases List.cons_eq_cons.mp split with ⟨rfl, rfl⟩
          simp [removal, List.eraseIdx_append_of_length_le]
      · refine .inr (.inl ⟨refused, ?_⟩)
        rw [index]
      · refine .inr (.inr ⟨before, stored, after, split, refused, panics, ?_⟩)
        rw [index]
      · exact absurd fails (calm stored cause)

/-- A table of one version, with one route for each protocol, all of them fitting their
destination. -/
structure Each (version : IpVersion) (fits : IpNet → Route → Prop) (rib : Rib) : Prop where
  version_eq : rib.ipVersion = version
  distinct : ∀ destination, Distinct (rib.routes destination)
  fits : ∀ destination, ∀ route ∈ rib.routes destination, fits destination route

namespace Each

variable {version : IpVersion} {fits : IpNet → Route → Prop} (each : rib.Each version fits)

include each

theorem write (distinct : Distinct listed) (fit : ∀ route ∈ listed, fits destination route) :
    (rib.write destination listed).Each version fits := by
  refine ⟨each.version_eq, fun other => ?_, fun other route member => ?_⟩
  · rw [routes_write]
    split_ifs
    · exact distinct
    · exact each.distinct other
  rw [routes_write] at member
  split_ifs at member with same
  · rw [same]
    exact fit route member
  · exact each.fits other route member

theorem ranked (fit : fits destination route) :
    (rib.write destination (Rib.ranked route (rib.routes destination))).Each version fits := by
  have distinct := each.distinct destination
  refine each.write (distinct_ranked distinct) fun stored member => ?_
  rcases (mem_ranked distinct).mp member with rfl | ⟨old, -⟩
  · exact fit
  · exact each.fits destination stored old

theorem removed {before after : List Route}
    (split : rib.routes destination = before ++ stored :: after) :
    (rib.write destination (before ++ after)).Each version fits := by
  have fewer : (before ++ after).Sublist (rib.routes destination) := by
    rw [split]
    exact (List.Sublist.refl before).append (List.sublist_cons_self stored after)
  exact each.write ((each.distinct destination).sublist (fewer.map _))
    fun route member => each.fits destination route (fewer.subset member)

theorem insert (fit : fits destination route) :
    (Rib.insert destination route rib).2.Each version fits := by
  by_cases same : route.version = rib.ipVersion
  · rcases insert_eq same destination with ⟨best, others, result, list, ran, -⟩
    rw [ran, ← list]
    exact each.ranked fit
  unfold Rib.insert
  rw [if_pos same]
  exact each

theorem removeRoute (route : Route) : (Channel.removeRoute route rib).2.Each version fits := by
  by_cases same : route.version = rib.ipVersion
  · rcases remove_cases same with ⟨before, stored, after, split, -, -, ran⟩ | ⟨-, ran⟩ |
      ⟨-, -, -, -, -, -, ran⟩
    · rw [ran]
      exact each.removed split
    all_goals
      rw [ran]
      exact each
  unfold Channel.removeRoute remove
  rw [if_pos same]
  split <;> exact each

end Each

/-- Every destination has routes of its own, one for each protocol, in the order of distance. -/
structure Ordered (version : IpVersion) (rib : Rib) : Prop where
  each : rib.Each version fun destination route => route.destination = destination
  sorted : ∀ destination, (rib.routes destination).Pairwise Route.Le

namespace Ordered

variable {version : IpVersion} (ordered : rib.Ordered version)

include ordered

theorem sorted_write (sorted : listed.Pairwise Route.Le) (other : IpNet) :
    ((rib.write destination listed).routes other).Pairwise Route.Le := by
  rw [routes_write]
  split_ifs
  · exact sorted
  · exact ordered.sorted other

theorem registerRoute (route : Route) : (Channel.registerRoute route rib).2.Ordered version := by
  refine ⟨ordered.each.insert rfl, ?_⟩
  by_cases same : route.version = rib.ipVersion
  · rcases insert_eq same route.destination with ⟨best, others, result, list, ran, -⟩
    rw [Channel.registerRoute, ran, ← list]
    exact ordered.sorted_write (List.pairwise_insertionSort _ _)
  unfold Channel.registerRoute Rib.insert
  rw [if_pos same]
  exact ordered.sorted

theorem removeRoute (route : Route) : (Channel.removeRoute route rib).2.Ordered version := by
  refine ⟨ordered.each.removeRoute route, ?_⟩
  by_cases same : route.version = rib.ipVersion
  · rcases remove_cases same with ⟨before, stored, after, split, -, -, ran⟩ | ⟨-, ran⟩ |
      ⟨-, -, -, -, -, -, ran⟩
    · rw [ran]
      refine ordered.sorted_write ((ordered.sorted route.destination).sublist ?_)
      rw [split]
      exact (List.Sublist.refl before).append (List.sublist_cons_self stored after)
    all_goals
      rw [ran]
      exact ordered.sorted
  unfold Channel.removeRoute remove
  rw [if_pos same]
  split <;> exact ordered.sorted

theorem combine {change : Route → Route → Except Error Route}
    {otherwise : Route → Effect Rib Error (Option (Route × Bool))}
    (kept : ∀ route, (otherwise route rib).2.Ordered version) (route : Route) :
    (Channel.combine rib route change otherwise).2.Ordered version := by
  unfold Channel.combine
  split
  · split
    · exact ordered.registerRoute _
    · exact ordered
  · exact kept route

theorem handle (request : RequestType) (route : Route) :
    (Channel.handle request route rib).2.Ordered version := by
  cases request with
  | add | replace => exact ordered.registerRoute route
  | addMultiPath => exact ordered.combine ordered.registerRoute route
  | delete => exact ordered.removeRoute route
  | deleteMultiPath => exact ordered.combine ordered.removeRoute route

end Ordered

end Rib

theorem ChannelState.step_ordered {version : IpVersion} {state : ChannelState}
    (ordered : state.rib.Ordered version) (request : RequestType × Route) :
    (state.step request).rib.Ordered version := by
  have handled := ordered.handle request.1 request.2
  unfold step
  split_ifs
  · exact ordered
  rcases ran : Channel.handle request.1 request.2 state.rib with ⟨result | cause | _, left⟩
  all_goals
    rw [ran] at handled
    exact handled

/-- Whatever requests a channel has taken, its table is in order, so that no route of a destination
has a smaller distance than the first one, which is published. -/
theorem ChannelState.run_ordered (ipVersion : IpVersion) (requests : List (RequestType × Route)) :
    ((new ipVersion).run requests).rib.Ordered ipVersion := by
  refine List.foldlRecOn (motive := fun state : ChannelState => state.rib.Ordered ipVersion)
    requests step ?_ fun _ ordered request _ => step_ordered ordered request
  refine ⟨⟨rfl, fun destination => ?_, fun destination route member => ?_⟩, fun destination => ?_⟩
  · exact List.nodup_nil
  · exact absurd member List.not_mem_nil
  · exact List.Pairwise.nil

end Sart.Fib
