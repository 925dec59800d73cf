import Sart.Rib.Handling

/-!
# Agreement of the Loc-RIB and the FIB

The routes of the FIB are what the requests for single changes add up to.  They
are meant to be the first next hops of the best paths.  When one of several best
paths leaves, its gateway is removed even if another best path uses it; and of a
new set of best paths only the gateway of the first is sent.
-/

namespace Sart

open Sart.Lib Sart.Lib.Effect

abbrev FibRoutes := IpNet → Option (Finset IpAddr)

def Route.gateways (route : Route) : Finset IpAddr := (route.nextHops.map NextHop.gateway).toFinset

namespace FibRoutes

/-- `addRoute` replaces the gateways of a network, `addMultiPathRoute` adds to them,
`deleteMultiPathRoute` removes the listed ones and `deleteRoute` the route. -/
def apply (routes : FibRoutes) : Output → FibRoutes
  | .fib (.addRoute _ _ route _) =>
    Function.update routes route.destination (some route.gateways)
  | .fib (.addMultiPathRoute _ _ route) =>
    Function.update routes route.destination
      (some ((routes route.destination).getD ∅ ∪ route.gateways))
  | .fib (.deleteMultiPathRoute _ _ destination gateways) =>
    Function.update routes destination
      ((routes destination).map fun present => present \ gateways.toFinset)
  | .fib (.deleteRoute _ _ destination) => Function.update routes destination none
  | _ => routes

end FibRoutes

def fibRoutes (sent : List Output) : FibRoutes := sent.foldl FibRoutes.apply fun _ => none

theorem fibRoutes_put (state : RibState) (out : Output) :
    fibRoutes (state.put out).sent = (fibRoutes state.sent).apply out := by
  simp [fibRoutes, RibState.put, List.foldl_append]

def Path.firstHop (path : Path) : Option IpAddr := path.nextHops.head?

def bestHops (paths : List Path) : Finset IpAddr :=
  ((paths.filter Path.best).filterMap Path.firstHop).toFinset

variable {hop : IpAddr} {state : RibState} {family : AddressFamily} {paths others : List Path}
  {current path : Path} {route : Option (Finset IpAddr)} {net : IpNet} {rib : RibManager}
  {status : LocRibStatus}

theorem mem_bestHops :
    hop ∈ bestHops paths ↔ ∃ path ∈ paths, path.best = true ∧ path.firstHop = some hop := by
  simp [bestHops, and_assoc]

def routeOf (paths : List Path) : Option (Finset IpAddr) :=
  if paths = [] then none else some (bestHops paths)

theorem routeOf_of_ne_nil (nonempty : paths ≠ []) :
    routeOf paths = some (bestHops paths) := by
  simp [routeOf, nonempty]

theorem bestHops_of_map_ageless (same : others.map Path.ageless = paths.map Path.ageless) :
    bestHops others = bestHops paths := by
  have bare : ∀ list : List Path, bestHops (list.map Path.ageless) = bestHops list := by
    intro list
    ext hop
    simp only [mem_bestHops, List.mem_map, exists_exists_and_eq_and]
    rfl
  rw [← bare others, same, bare]

theorem bestHops_append (front back : List Path) :
    bestHops (front ++ back) = bestHops front ∪ bestHops back := by
  simp [bestHops]

theorem bestHops_cons (path : Path) (paths : List Path) :
    bestHops (path :: paths) =
      (if path.best then path.firstHop.toFinset else ∅) ∪ bestHops paths := by
  ext hop
  by_cases best : path.best = true <;> simp [bestHops, best]

theorem bestHops_remove {before after : List Path} {removed : Path}
    (unmarked : removed.best = false) :
    bestHops (before ++ removed :: after) = bestHops (before ++ after) := by
  simp [bestHops_append, bestHops_cons, unmarked]

theorem bestHops_eq_singleton {head : Path} (headMem : head ∈ paths) (headBest : head.best = true)
    (headHop : head.firstHop = some hop)
    (same : ∀ path ∈ paths, path.best = true → path.firstHop = some hop) :
    bestHops paths = {hop} := by
  ext other
  simp only [mem_bestHops, Finset.mem_singleton]
  constructor
  · rintro ⟨path, member, best, otherHop⟩
    exact Option.some.inj (otherHop.symm.trans (same path member best))
  · rintro rfl
    exact ⟨head, headMem, headBest, headHop⟩

/-- The marks of a list: the head is best, no best path stands behind one that is not, and
without multipath the head is the only one. -/
structure BestFirst (multiPath : Bool) (bests : List Bool) : Prop where
  head : ∀ best ∈ bests.head?, best = true
  initial : bests.Pairwise fun earlier later => later = true → earlier = true
  only : multiPath = false → ∀ best ∈ bests.tail, best = false

namespace BestFirst

variable {multiPath : Bool}

theorem nil : BestFirst multiPath [] := ⟨by simp, by simp, by simp⟩

variable {front back : List Bool}

theorem initial_append (initial : front.Pairwise fun earlier later => later = true → earlier = true)
    (unmarked : ∀ best ∈ back, best = false) :
    (front ++ back).Pairwise fun earlier later => later = true → earlier = true := by
  refine List.pairwise_append.mpr ⟨initial, ?_, ?_⟩
  · refine List.pairwise_of_forall_mem_list fun earlier _ later member isTrue => ?_
    rw [unmarked later member] at isTrue
    cases isTrue
  intro earlier _ later member isTrue
  rw [unmarked later member] at isTrue
  cases isTrue

theorem alone {others : List Bool} (unmarked : ∀ other ∈ others, other = false) :
    BestFirst multiPath (true :: others) := by
  refine ⟨by simp, ?_, fun _ => by simpa using unmarked⟩
  exact initial_append (List.pairwise_singleton _ true) unmarked

theorem before (first : BestFirst multiPath (front ++ true :: back)) :
    ∀ best ∈ front, best = true := by
  intro best member
  exact (List.pairwise_append.mp first.initial).2.2 best member true (by simp) rfl

theorem rest_unmarked {next : Bool} {rest : List Bool}
    (initial : (next :: rest).Pairwise fun earlier later => later = true → earlier = true)
    (unmarked : next = false) : ∀ best ∈ rest, best = false := by
  intro best member
  rw [← Bool.not_eq_true]
  intro isTrue
  have := (List.pairwise_cons.mp initial).1 best member isTrue
  rw [unmarked] at this
  cases this

theorem remove {removed : Bool} (marks : BestFirst multiPath (front ++ removed :: back))
    (head : front = [] → ∀ best ∈ back.head?, best = true) :
    BestFirst multiPath (front ++ back) := by
  refine ⟨?_, ?_, ?_⟩
  · cases front with
    | nil => simpa using head rfl
    | cons first rest => simpa using marks.head
  · exact marks.initial.sublist ((List.sublist_cons_self removed back).append_left front)
  · intro single best member
    refine marks.only single best ?_
    cases front with
    | nil => simpa using List.mem_of_mem_tail member
    | cons first rest =>
      simp only [List.cons_append, List.tail_cons, List.mem_append, List.mem_cons] at member ⊢
      tauto

end BestFirst

theorem BestFirst.onlyHeadBest {multiPath : Bool}
    (marks : BestFirst multiPath (paths.map Path.best)) :
    multiPath = true ∨ OnlyHeadBest paths := by
  cases multiPath with
  | true => exact .inl rfl
  | false =>
    refine .inr fun path member => ?_
    have unmarked := marks.only rfl
    rw [← List.map_tail] at unmarked
    exact unmarked path.best (List.mem_map_of_mem member)

theorem map_best_of_map_ageless (same : others.map Path.ageless = paths.map Path.ageless) :
    others.map Path.best = paths.map Path.best := by
  have kept : (others.map Path.ageless).map Path.best = (paths.map Path.ageless).map Path.best := by
    rw [same]
  rw [List.map_map, List.map_map] at kept
  exact kept

def routeAfterInsert (route : Option (Finset IpAddr)) (hop : IpAddr) :
    LocRibStatus → Option (Finset IpAddr)
  | .bestPathChanged _ _ => some {hop}
  | .multiPathAdded => some (route.getD ∅ ∪ {hop})
  | _ => route

variable {multiPath : Bool} {stored : List Path}
  (inserted : Inserted multiPath path paths (.ok status) stored)
  (marks : BestFirst multiPath (paths.map Path.best)) (unmarked : path.best = false)
  (leads : LeadsOrFollows multiPath path paths)

include inserted marks unmarked leads in
theorem Inserted.bestFirst : BestFirst multiPath (stored.map Path.best) := by
  cases inserted with
  | changed _ lead _ demoted =>
    have others := demoted marks.onlyHeadBest
    rw [lead leads, List.insertIdx_zero]
    apply BestFirst.alone
    intro best member
    rcases List.mem_map.mp member with ⟨other, otherMem, rfl⟩
    exact others other otherMem
  | @joined front back last multi same best later =>
    subst multi
    rw [← map_best_of_map_ageless same, List.map_append, List.map_cons, best] at marks
    have early := marks.before
    have shape : (front ++ last :: path.markBest .equalCostMiltiPath :: back).map Path.best =
        (front.map Path.best ++ [true, true]) ++ back.map Path.best := by
      simp [best, Path.markBest]
    rw [shape]
    refine ⟨?_, BestFirst.initial_append ?_ ?_, by simp⟩
    · have head := marks.head
      cases front with
      | nil => simp
      | cons first rest => simpa using head
    · refine List.pairwise_of_forall_mem_list fun earlier member _ _ _ => ?_
      rcases List.mem_append.mp member with member | member
      · exact early earlier member
      · simpa using member
    · intro mark member
      rcases List.mem_map.mp member with ⟨other, otherMem, rfl⟩
      exact later other otherMem
  | @placed front back same behind later =>
    rw [← map_best_of_map_ageless same, List.map_append] at marks
    rw [List.map_append, List.map_cons, unmarked]
    rcases List.exists_cons_of_ne_nil behind with ⟨first, rest, rfl⟩
    have backUnmarked : ∀ mark ∈ back.map Path.best, mark = false := by
      intro mark member
      cases multi : multiPath with
      | true =>
        rcases List.mem_map.mp member with ⟨other, otherMem, rfl⟩
        exact later multi other otherMem
      | false => exact marks.only multi mark (by simp [List.mem_map.mp member])
    refine ⟨by simpa using marks.head, BestFirst.initial_append ?_ ?_, ?_⟩
    · exact (List.pairwise_append.mp marks.initial).1
    · simpa using backUnmarked
    · intro single mark member
      have only := marks.only single
      simp only [List.map_cons, List.cons_append, List.tail_cons, List.mem_append,
        List.mem_cons] at member only
      rcases member with member | rfl | member
      · exact only mark (.inl member)
      · rfl
      · exact backUnmarked mark member

include inserted marks unmarked leads in
theorem Inserted.route_eq (firstHop : path.firstHop = some hop) :
    routeOf stored = routeAfterInsert (routeOf paths) hop status := by
  have nonempty : ∀ others : List Path, others ≠ [] →
      others.map Path.ageless = paths.map Path.ageless → paths ≠ [] := by
    rintro others othersNonempty same rfl
    exact othersNonempty (List.map_eq_nil_iff.mp same)
  cases inserted with
  | @changed others reason _ lead _ demoted =>
    have unmarkedOthers := demoted marks.onlyHeadBest
    rw [lead leads, List.insertIdx_zero, routeOf_of_ne_nil (by simp), routeAfterInsert,
      Option.some.injEq]
    have leadHop : (path.markBest reason).firstHop = some hop := firstHop
    refine bestHops_eq_singleton List.mem_cons_self rfl leadHop ?_
    intro stored member best
    rcases List.mem_cons.mp member with rfl | member
    · exact leadHop
    · simp [unmarkedOthers stored member] at best
  | @joined front back last _ same _ _ =>
    rw [routeOf_of_ne_nil (by simp), routeOf_of_ne_nil (nonempty _ (by simp) same),
      ← bestHops_of_map_ageless same, routeAfterInsert, Option.some.injEq, Option.getD_some]
    have hops : (path.markBest .equalCostMiltiPath).firstHop = some hop := firstHop
    ext other
    simp only [bestHops_append, bestHops_cons, hops, Finset.mem_union, Option.toFinset_some]
    tauto
  | @placed front back same behind _ =>
    change routeOf (front ++ path :: back) = routeOf paths
    rw [routeOf_of_ne_nil (by simp), routeOf_of_ne_nil (nonempty _ (by simp [behind]) same),
      ← bestHops_of_map_ageless same, bestHops_remove unmarked]

def EqualCostHops (hop : Option IpAddr) : Path → List Path → Prop
  | _, [] => True
  | current, next :: rest =>
    current.isEqualCost next = true → next.firstHop = hop ∧ EqualCostHops hop next rest

instance decidableEqualCostHops (hop : Option IpAddr) :
    (current : Path) → (paths : List Path) → Decidable (EqualCostHops hop current paths)
  | _, [] => isTrue trivial
  | current, next :: rest =>
    have := decidableEqualCostHops hop next rest
    inferInstanceAs (Decidable (current.isEqualCost next = true → _ ∧ _))

/-- The removal of a best path with multipath: no best path that stays shares its first hop,
and the paths that become best together share one. -/
def KeepsHops (before : List Path) (removed : Path) : List Path → Prop
  | next :: second :: rest =>
    removed.best = true →
      if before = [] ∧ next.best = false then
        firstLess true next second = none →
          EqualCostHops next.firstHop next (second :: rest)
      else ∀ other ∈ next :: second :: rest, other.best = true →
        other.firstHop ≠ removed.firstHop
  | _ => True

instance (before : List Path) (removed : Path) :
    (others : List Path) → Decidable (KeepsHops before removed others)
  | [] => isTrue trivial
  | [_] => isTrue trivial
  | _ :: _ :: _ => inferInstanceAs (Decidable (_ → ite _ _ _))

theorem markEqualCost_hops {hop : Option IpAddr} (currentHop : current.firstHop = hop)
    (unmarked : ∀ path ∈ paths, path.best = false) (hops : EqualCostHops hop current paths) :
    ∀ path ∈ markEqualCost current paths, path.best = true → path.firstHop = hop := by
  induction paths generalizing current with
  | nil =>
    intro path member _
    rw [List.mem_singleton.mp member]
    exact currentHop
  | cons next rest ih =>
    intro path member best
    unfold markEqualCost at member
    split_ifs at member with equalCost
    · rcases hops equalCost with ⟨nextHop, restHops⟩
      rcases List.mem_cons.mp member with rfl | member
      · exact currentHop
      have nextHops : EqualCostHops hop (next.markBest .equalCostMiltiPath) rest := by
        cases rest <;> exact restHops
      have markedHop : (next.markBest .equalCostMiltiPath).firstHop = hop := nextHop
      exact ih markedHop (fun other otherMem => unmarked other (by simp [otherMem])) nextHops path
        member best
    rcases List.mem_cons.mp member with rfl | member
    · exact currentHop
    · rw [unmarked path member] at best
      cases best

theorem markEqualCost_head_hop (current : Path) (paths : List Path) :
    ((markEqualCost current paths).head?.bind Path.firstHop) = current.firstHop ∧
      ∃ head ∈ markEqualCost current paths, head.best = current.best ∧
        head.firstHop = current.firstHop := by
  cases paths with
  | nil => exact ⟨rfl, current, by simp [markEqualCost], rfl, rfl⟩
  | cons next rest =>
    unfold markEqualCost
    split_ifs
    · exact ⟨rfl, current.joinEqualCost, by simp, rfl, rfl⟩
    · exact ⟨rfl, current, by simp, rfl, rfl⟩

theorem markEqualCost_bestFirst (best : current.best = true)
    (unmarked : ∀ path ∈ paths, path.best = false) :
    BestFirst true ((markEqualCost current paths).map Path.best) := by
  have initial : ((markEqualCost current paths).map Path.best).Pairwise
      fun earlier later => later = true → earlier = true := by
    induction paths generalizing current with
    | nil => exact List.pairwise_singleton _ _
    | cons next rest ih =>
      have others := fun path member => unmarked path (List.mem_cons_of_mem next member)
      unfold markEqualCost
      split_ifs
      · rw [List.map_cons, List.pairwise_cons]
        exact ⟨fun _ _ _ => best, ih rfl others⟩
      have alone : BestFirst true (true :: (next :: rest).map Path.best) :=
        BestFirst.alone (by simpa using unmarked)
      rw [List.map_cons, best]
      exact alone.initial
  refine ⟨?_, initial, by simp⟩
  cases paths with
  | nil => simpa [markEqualCost] using best
  | cons next rest =>
    unfold markEqualCost
    split_ifs <;> simpa [Path.joinEqualCost] using best

variable {pfx : IpNet} {before after : List Path} {removed next : Path} {rest : List Path}

theorem Succeeds.rest_unmarked (succeeds : Succeeds multiPath before removed after next)
    (shape : before ++ after = next :: rest)
    (marks : BestFirst multiPath ((before ++ removed :: after).map Path.best)) :
    ∀ path ∈ rest, path.best = false := by
  rcases succeeds with ⟨removedBest, _, alone⟩
  have initial : ((next :: rest).map Path.best).Pairwise
      fun earlier later => later = true → earlier = true := by
    rw [← shape]
    refine marks.initial.sublist (List.Sublist.map _ ?_)
    exact (List.sublist_cons_self removed after).append_left before
  intro path member
  cases multi : multiPath with
  | true =>
    have several : 2 ≤ (before ++ after).length := by
      have := List.length_pos_of_mem member
      simp only [shape, List.length_cons]
      omega
    exact BestFirst.rest_unmarked initial (alone multi several).2 path.best
      (List.mem_map_of_mem member)
  | false =>
    have only := marks.only multi
    cases before with
    | nil =>
      simp only [List.nil_append] at shape
      refine only path.best ?_
      simp only [List.nil_append, List.map_cons, List.tail_cons, shape]
      exact List.mem_cons_of_mem _ (List.mem_map_of_mem member)
    | cons first others =>
      have unmarked := only removed.best (by simp)
      rw [removedBest] at unmarked
      cases unmarked

theorem Dropped.bestFirst (dropped : Dropped multiPath pfx before removed after status stored)
    (marks : BestFirst multiPath ((before ++ removed :: after).map Path.best)) :
    BestFirst multiPath (stored.map Path.best) := by
  cases dropped with
  | unchanged notBest =>
    rw [List.map_append, List.map_cons] at marks
    rw [List.map_append]
    refine marks.remove fun none => ?_
    have head := marks.head
    simp [none, notBest] at head
  | emptied _ _ => exact BestFirst.nil
  | succeeded succeeds shape =>
    refine BestFirst.alone fun mark member => ?_
    rcases List.mem_map.mp member with ⟨path, pathMem, rfl⟩
    exact succeeds.rest_unmarked shape marks path pathMem
  | recomputed succeeds shape multi _ =>
    subst multi
    exact markEqualCost_bestFirst rfl (succeeds.rest_unmarked shape marks)
  | left _ shape _ _ remains =>
    rw [List.map_append, List.map_cons] at marks
    rw [List.map_append]
    refine marks.remove fun none => ?_
    have none := List.map_eq_nil_iff.mp none
    subst none
    rw [List.nil_append] at shape
    simpa [shape] using remains rfl

def routeAfterDrop (route : Option (Finset IpAddr)) (stored : List Path) :
    LocRibStatus → Option (Finset IpAddr)
  | .bestPathChanged _ _ => (stored.head?.bind Path.firstHop).map singleton
  | .multiPathWithdrawn _ _ gateway => route.map fun present => present \ gateway.toFinset
  | .withdrawn _ _ => none
  | _ => route

theorem bestHops_sdiff (best : removed.best = true)
    (unshared : ∀ other ∈ before ++ after, other.best = true →
      other.firstHop ≠ removed.firstHop) :
    bestHops (before ++ after) =
      bestHops (before ++ removed :: after) \ removed.firstHop.toFinset := by
  have others : Disjoint (bestHops (before ++ after)) removed.firstHop.toFinset := by
    refine Finset.disjoint_left.mpr fun hop member isRemoved => ?_
    rcases mem_bestHops.mp member with ⟨path, pathMem, pathBest, pathHop⟩
    exact unshared path pathMem pathBest (pathHop.trans (by simpa [eq_comm] using isRemoved))
  rw [bestHops_append before (_ :: _), bestHops_cons, if_pos best, Finset.union_left_comm,
    ← bestHops_append, Finset.union_sdiff_cancel_left others.symm]

theorem Dropped.route_eq (dropped : Dropped multiPath pfx before removed after status stored)
    (marks : BestFirst multiPath ((before ++ removed :: after).map Path.best))
    (hops : ∀ path ∈ before ++ after, path.nextHops ≠ [])
    (keeps : multiPath = true → KeepsHops before removed (before ++ after)) :
    routeOf stored =
      routeAfterDrop (routeOf (before ++ removed :: after)) stored status := by
  have hopOf : ∀ path ∈ before ++ after, ∃ hop, path.firstHop = some hop := by
    intro path member
    rcases List.exists_cons_of_ne_nil (hops path member) with ⟨hop, others, shape⟩
    exact ⟨hop, by simp [Path.firstHop, shape]⟩
  cases dropped with
  | unchanged notBest =>
    change routeOf (before ++ after) = routeOf (before ++ removed :: after)
    have nonempty : before ++ after ≠ [] := by
      intro none
      have head := marks.head
      simp [List.append_eq_nil_iff.mp none, notBest] at head
    rw [routeOf_of_ne_nil nonempty, routeOf_of_ne_nil (by simp), bestHops_remove notBest]
  | emptied _ _ => rfl
  | @succeeded next rest reason succeeds shape =>
    rcases hopOf next (by simp [shape]) with ⟨hop, nextHop⟩
    have leadHop : (next.markBest reason).firstHop = some hop := nextHop
    rw [routeOf_of_ne_nil (by simp), routeAfterDrop, List.head?_cons, Option.bind_some, leadHop,
      Option.map_some, Option.some.injEq]
    refine bestHops_eq_singleton List.mem_cons_self rfl leadHop ?_
    intro path member best
    rcases List.mem_cons.mp member with rfl | member
    · exact leadHop
    · simp [succeeds.rest_unmarked shape marks path member] at best
  | @recomputed next second rest reason succeeds shape multi tied =>
    subst multi
    rcases hopOf next (by simp [shape]) with ⟨hop, nextHop⟩
    have leadHop : (next.markBest reason).firstHop = some hop := nextHop
    have alone := succeeds.2.2 rfl (by simp [shape])
    have chain : EqualCostHops (some hop) (next.markBest reason) (second :: rest) := by
      have keeps := keeps rfl
      rw [shape, KeepsHops, if_pos alone, nextHop] at keeps
      exact keeps succeeds.1 tied
    rcases markEqualCost_head_hop (next.markBest reason) (second :: rest) with
      ⟨headHop, head, headMem, headBest, headHop'⟩
    have nonempty := List.ne_nil_of_mem headMem
    rw [routeOf_of_ne_nil nonempty, routeAfterDrop, headHop, leadHop, Option.map_some,
      Option.some.injEq]
    exact bestHops_eq_singleton headMem headBest (headHop'.trans leadHop)
      (markEqualCost_hops leadHop (succeeds.rest_unmarked shape marks) chain)
  | @left next rest best shape multi several remains =>
    change routeOf (before ++ after) = (routeOf (before ++ removed :: after)).map
      fun present => present \ removed.firstHop.toFinset
    rw [routeOf_of_ne_nil (by simp [shape]), routeOf_of_ne_nil (by simp), Option.map_some,
      Option.some.injEq]
    refine bestHops_sdiff best ?_
    rcases List.exists_cons_of_ne_nil several with ⟨second, others, rfl⟩
    have keeps := keeps multi
    have notAlone : ¬(before = [] ∧ next.best = false) := by
      rintro ⟨none, unmarked⟩
      rw [remains none] at unmarked
      cases unmarked
    rw [shape, KeepsHops, if_neg notAlone] at keeps
    rw [shape]
    exact keeps best

structure WellKept (rib : RibManager) : Prop where
  endpoint : rib.endpoint = true
  filed : rib.locRib.Filed
  marks : ∀ afi pfx, BestFirst rib.locRib.multiPath ((rib.locRib.paths afi pfx).map Path.best)
  hops : ∀ afi pfx, ∀ path ∈ rib.locRib.paths afi pfx, path.nextHops ≠ []

structure Awaiting (net : IpNet) (route : Option (Finset IpAddr)) (state : RibState) : Prop where
  wellKept : WellKept state.rib
  routes : ∀ pfx, routeOf (state.rib.locRib.paths pfx.afi pfx) =
    Function.update (fibRoutes state.sent) net route pfx

structure Agrees (state : RibState) : Prop where
  wellKept : WellKept state.rib
  routes : ∀ pfx, routeOf (state.rib.locRib.paths pfx.afi pfx) = fibRoutes state.sent pfx

theorem Awaiting.agrees (awaiting : Awaiting net route state)
    (same : fibRoutes state.sent net = route) :
    Agrees state := by
  refine ⟨awaiting.wellKept, fun pfx => ?_⟩
  rw [awaiting.routes, ← same, Function.update_eq_self]

theorem Awaiting.put (awaiting : Awaiting net route state) {out : Output}
    (follows : (fibRoutes state.sent).apply out =
      Function.update (fibRoutes state.sent) net route) : Agrees (state.put out) := by
  refine ⟨awaiting.wellKept, fun pfx => ?_⟩
  rw [fibRoutes_put, follows]
  exact awaiting.routes pfx

theorem Agrees.send (agrees : Agrees state) (peer : NeighborPair) (event : RibEvent) :
    Agrees (state.put (.send peer event)) := by
  refine ⟨agrees.wellKept, fun pfx => ?_⟩
  rw [fibRoutes_put]
  exact agrees.routes pfx

structure Routable (family : AddressFamily) (path : Path) : Prop where
  unmarked : path.best = false
  hops : path.nextHops ≠ []
  sameFamily : path.pfx.afi = family.afi

instance (family : AddressFamily) (path : Path) : Decidable (Routable family path) :=
  decidable_of_iff (path.best = false ∧ path.nextHops ≠ [] ∧ path.pfx.afi = family.afi)
    ⟨fun ⟨unmarked, hops, sameFamily⟩ => ⟨unmarked, hops, sameFamily⟩,
      fun routable => ⟨routable.unmarked, routable.hops, routable.sameFamily⟩⟩

theorem WellKept.insert (kept : WellKept rib) (routable : Routable family path)
    (leads : LeadsOrFollows rib.locRib.multiPath path (rib.locRib.paths family.afi path.pfx)) :
    WellKept { rib with locRib := (rib.locRib.insert family path).2 } := by
  refine ⟨kept.endpoint, kept.filed.insert routable.sameFamily, ?_, ?_⟩
  · rw [LocRib.insert_multiPath]
    exact LocRib.insert_forall (fun _ _ list => BestFirst _ (list.map Path.best)) kept.marks
      fun inserted => inserted.bestFirst (kept.marks _ _) routable.unmarked leads
  · exact LocRib.forall_mem_insert (fun _ _ path => path.nextHops ≠ []) kept.hops routable.hops

theorem WellKept.drop (kept : WellKept rib) (family : AddressFamily) (net : IpNet) (id : UInt64) :
    WellKept { rib with locRib := (rib.locRib.drop family net id).2 } := by
  refine ⟨kept.endpoint, kept.filed.drop _ _ _, ?_, ?_⟩
  · rw [LocRib.drop_multiPath]
    exact LocRib.drop_forall (fun _ _ list => BestFirst _ (list.map Path.best)) kept.marks
      fun shape _ dropped => dropped.bestFirst (shape ▸ kept.marks _ _)
  · exact LocRib.forall_mem_drop (fun _ _ path => path.nextHops ≠ []) kept.hops

theorem Agrees.insert (agrees : Agrees state) (routable : Routable family path)
    (leads : LeadsOrFollows state.rib.locRib.multiPath path
      (state.rib.locRib.paths family.afi path.pfx)) (firstHop : path.firstHop = some hop)
    (returned : (state.rib.locRib.insert family path).1 = .ok status) :
    Awaiting path.pfx (routeAfterInsert (fibRoutes state.sent path.pfx) hop status)
      (state.withLocRib (state.rib.locRib.insert family path).2) := by
  refine ⟨agrees.wellKept.insert routable leads, fun pfx => ?_⟩
  rcases LocRib.insert_ok returned with ⟨stored, inserted, updated⟩
  change routeOf ((state.rib.locRib.insert family path).2.paths pfx.afi pfx) =
    Function.update (fibRoutes state.sent) path.pfx _ pfx
  rw [updated, ← agrees.routes path.pfx]
  by_cases here : pfx = path.pfx
  · subst here
    rw [if_pos ⟨routable.sameFamily, rfl⟩, Function.update_self, routable.sameFamily]
    exact inserted.route_eq (agrees.wellKept.marks _ _) routable.unmarked leads firstHop
  · rw [if_neg (by simp [here]), Function.update_of_ne here]
    exact agrees.routes pfx

def DropsAgreeing (family : AddressFamily) (locRib : LocRib) (pathId : IpNet × UInt64) : Prop :=
  locRib.multiPath = true → ∀ parts ∈ splitById pathId.2 (locRib.paths family.afi pathId.1),
    KeepsHops parts.1 parts.2.1 (parts.1 ++ parts.2.2)
  deriving Decidable

theorem Agrees.drop (agrees : Agrees state) {pathId : IpNet × UInt64}
    (condition : DropsAgreeing family state.rib.locRib pathId)
    (returned : (state.rib.locRib.drop family pathId.1 pathId.2).1 = .ok status) :
    Awaiting pathId.1 (routeAfterDrop (fibRoutes state.sent pathId.1)
        ((state.rib.locRib.drop family pathId.1 pathId.2).2.paths family.afi pathId.1) status)
      (state.withLocRib (state.rib.locRib.drop family pathId.1 pathId.2).2) := by
  refine ⟨agrees.wellKept.drop _ _ _, fun pfx => ?_⟩
  rcases LocRib.drop_ok returned with
    ⟨before, removed, after, stored, split, shape, dropped, updated⟩
  have sameFamily : family.afi = pathId.1.afi :=
    agrees.wellKept.filed.family _ _ (by simp [shape])
  change routeOf ((state.rib.locRib.drop family pathId.1 pathId.2).2.paths pfx.afi pfx) =
    Function.update (fibRoutes state.sent) pathId.1 _ pfx
  have left := updated family.afi pathId.1
  rw [if_pos ⟨rfl, rfl⟩] at left
  rw [left, updated pfx.afi pfx, ← agrees.routes pathId.1]
  by_cases here : pfx = pathId.1
  · subst here
    have marks := agrees.wellKept.marks family.afi pathId.1
    rw [shape] at marks
    rw [if_pos ⟨sameFamily.symm, rfl⟩, Function.update_self, ← sameFamily, shape]
    exact dropped.route_eq marks (fun path member => agrees.wellKept.hops _ _ path
      (LocRib.mem_of_mem_others shape member)) fun multi => condition multi _ split
  · rw [if_neg (by simp [here]), Function.update_of_ne here]
    exact agrees.routes pfx

namespace RibManager

open RibM

variable {env : Env} {abort : Option Error → RibState → Prop} {post : PUnit → RibState → Prop}
  {pre : RibState → Prop} {neighbor : NeighborPair}

theorem applyPath_served (served : env.ServesFib)
    {request : RibManager → Path → IpAddr → FibRequest} (firstHop : path.firstHop = some hop)
    (endpoint : ∀ state, pre state → state.rib.endpoint = true)
    (sends : ∀ state, pre state → post ⟨⟩ (state.put (.fib (request state.rib path hop)))) :
    Spec pre (applyPath env true request path) post abort := by
  refine Spec.read.bind fun rib => ?_
  split_ifs with configured
  · split
    · rename_i none
      simp [Path.firstHop, none] at firstHop
    rename_i first rest shape
    obtain rfl : first = hop := by simpa [Path.firstHop, shape] using firstHop
    refine output_spec ?_ fun state _ _ refused => absurd (served _ _) refused
    rintro state ⟨rfl, holds⟩
    exact sends state holds
  refine Spec.pure ?_
  rintro state ⟨rfl, holds⟩
  simp [endpoint state holds] at configured

theorem applyRequest_served (served : env.ServesFib)
    {request : RibManager → FibRequest} (endpoint : ∀ state, pre state → state.rib.endpoint = true)
    (sends : ∀ state, pre state → post ⟨⟩ (state.put (.fib (request state.rib)))) :
    Spec pre (applyRequest env true request) post abort := by
  refine Spec.read.bind fun rib => ?_
  split_ifs with configured
  · refine output_spec ?_ fun state _ _ refused => absurd (served _ _) refused
    rintro state ⟨rfl, holds⟩
    exact sends state holds
  refine Spec.pure ?_
  rintro state ⟨rfl, holds⟩
  simp [endpoint state holds] at configured

def ElementLeads (family : AddressFamily) (locRib : LocRib) (path : Path) : Prop :=
  LeadsOrFollows locRib.multiPath path (locRib.paths family.afi path.pfx)
  deriving Decidable

theorem installPath_agrees (served : env.ServesFib) (routable : Routable family path) :
    Spec (fun state => Agrees state ∧ ElementLeads family state.rib.locRib path)
      (installPath env family true path) (fun _ => Agrees) (fun _ => Agrees) := by
  rcases List.exists_cons_of_ne_nil routable.hops with ⟨hop, rest, hops⟩
  have firstHop : path.firstHop = some hop := by simp [Path.firstHop, hops]
  have insertion : Spec (fun state => Agrees state ∧ ElementLeads family state.rib.locRib path)
      (onLocRib fun locRib => locRib.insert family path)
      (fun status state => Awaiting path.pfx
        (routeAfterInsert (fibRoutes state.sent path.pfx) hop status) state)
      (fun _ => Agrees) := by
    refine onLocRib_spec (fun state status holds returned =>
      Agrees.insert holds.1 routable holds.2 firstHop returned) ?_
    rintro state cause ⟨agrees, leads⟩ failed
    refine ⟨agrees.wellKept.insert routable leads, fun pfx => ?_⟩
    exact (congrArg routeOf (LocRib.insert_error failed _ _)).trans (agrees.routes pfx)
  refine insertion.bind fun status => ?_
  have endpoint : ∀ state, Awaiting path.pfx
      (routeAfterInsert (fibRoutes state.sent path.pfx) hop status) state →
      state.rib.endpoint = true := fun state awaiting => awaiting.wellKept.endpoint
  cases status with
  | bestPathChanged pfx id =>
    refine (applyPath_served served firstHop endpoint fun state awaiting => ?_).bind
      fun _ => Spec.pure fun state agrees => agrees
    refine awaiting.put ?_
    simp [FibRoutes.apply, addRouteRequest, route, Route.gateways, routeAfterInsert]
  | multiPathAdded =>
    refine (applyPath_served served firstHop endpoint fun state awaiting => ?_).bind
      fun _ => Spec.pure fun state agrees => agrees
    refine awaiting.put ?_
    simp [FibRoutes.apply, addMultiPathRouteRequest, route, Route.gateways, routeAfterInsert]
  | notChanged | withdrawn pfx kind => exact Spec.pure fun state awaiting => awaiting.agrees rfl
  | multiPathWithdrawn pfx id gateway =>
    exact Spec.pure fun state awaiting => awaiting.agrees rfl

theorem dropPath_agrees (served : env.ServesFib) {pathId : IpNet × UInt64} :
    Spec (fun state => Agrees state ∧ DropsAgreeing family state.rib.locRib pathId)
      (dropPath env family true pathId) (fun _ => Agrees) (fun _ => Agrees) := by
  have removal : Spec (fun state => Agrees state ∧ DropsAgreeing family state.rib.locRib pathId)
      (onLocRib fun locRib => locRib.drop family pathId.1 pathId.2)
      (fun status state => Awaiting pathId.1 (routeAfterDrop (fibRoutes state.sent pathId.1)
          (state.rib.locRib.paths family.afi pathId.1) status) state ∧
        LocRib.ReportsOn family pathId.1 state.rib.locRib status)
      (fun _ => Agrees) := by
    refine onLocRib_spec (fun state status holds returned =>
      ⟨Agrees.drop holds.1 holds.2 returned, LocRib.drop_reportsOn returned⟩) ?_
    rintro state cause ⟨agrees, _⟩ failed
    refine ⟨agrees.wellKept.drop _ _ _, fun pfx => ?_⟩
    exact (congrArg routeOf (LocRib.drop_error failed _ _)).trans (agrees.routes pfx)
  refine removal.bind fun status => ?_
  have found : ∀ (locRib : LocRib) pfx id, pfx = pathId.1 ∧
      (∃ head ∈ (locRib.paths family.afi pathId.1).head?, head.id = id) →
      ∃ path, locRib.getById family pfx id = some path := by
    rintro locRib pfx id ⟨rfl, head, leads, rfl⟩
    exact ⟨head, LocRib.getById_of_head leads⟩
  cases status with
  | bestPathChanged pfx id =>
    refine (findPath_found fun state holds => found _ _ _ holds.2).bind fun path => ?_
    have isHead : ∀ state : RibState, state.rib.locRib.getById family pfx id = some path →
        LocRib.ReportsOn family pathId.1 state.rib.locRib (.bestPathChanged pfx id) →
        (state.rib.locRib.paths family.afi pathId.1).head? = some path := by
      rintro state lookup ⟨rfl, head, leads, rfl⟩
      rw [LocRib.getById_of_head leads, Option.some.injEq] at lookup
      rw [← lookup]
      exact leads
    cases hops : path.nextHops with
    | nil =>
      refine Spec.of_false fun state ⟨lookup, awaiting, reports⟩ => ?_
      exact awaiting.wellKept.hops _ _ path
        (List.mem_of_mem_head? (isHead state lookup reports)) hops
    | cons hop rest =>
      have firstHop : path.firstHop = some hop := by simp [Path.firstHop, hops]
      refine (applyPath_served served firstHop (fun state holds => holds.2.1.wellKept.endpoint)
        fun state holds => ?_).bind fun _ => Spec.pure fun state agrees => agrees
      rcases holds with ⟨lookup, awaiting, reports⟩
      have leads := isHead state lookup reports
      have net := awaiting.wellKept.filed.nets _ _ path (List.mem_of_mem_head? leads)
      refine awaiting.put ?_
      simp [FibRoutes.apply, addRouteRequest, route, Route.gateways, routeAfterDrop, leads,
        firstHop, net]
  | multiPathWithdrawn pfx id gateway =>
    refine (findPath_found fun state holds => found _ _ _ holds.2).bind fun path => ?_
    cases gateway with
    | none =>
      refine Spec.pure fun state holds => holds.2.1.agrees ?_
      simp [routeAfterDrop]
    | some gateway =>
      refine (applyRequest_served served (fun state holds => holds.2.1.wellKept.endpoint)
        fun state holds => ?_).bind fun _ => Spec.pure fun state agrees => agrees
      obtain rfl : pfx = pathId.1 := holds.2.2.1
      refine holds.2.1.put ?_
      simp [FibRoutes.apply, routeAfterDrop]
  | withdrawn pfx kind =>
    refine (applyRequest_served served (fun state holds => holds.1.wellKept.endpoint)
      fun state holds => ?_).bind fun _ => Spec.pure fun state agrees => agrees
    obtain rfl : pfx = pathId.1 := holds.2
    exact holds.1.put rfl
  | notChanged | multiPathAdded => exact Spec.pure fun state holds => holds.1.agrees rfl

def ElementsLead (family : AddressFamily) (locRib : LocRib) (paths : List Path) : Prop :=
  AllSteps (fun locRib path => (LocRib.insert locRib family path).2) (ElementLeads family) locRib
    paths
  deriving Decidable

def ElementsKeepHops (family : AddressFamily) (locRib : LocRib)
    (pathIds : List (IpNet × UInt64)) : Prop :=
  AllSteps (fun locRib pathId => (LocRib.drop locRib family pathId.1 pathId.2).2)
    (DropsAgreeing family) locRib pathIds
  deriving Decidable

theorem advertise_agrees {skip : RibManager → NeighborPair → PathKind → Bool}
    {changed : List (IpNet × UInt64)} :
    Spec Agrees (advertise env family skip changed) (fun _ => Agrees) (fun _ => Agrees) :=
  advertise_spec (fun _ => Agrees) (fun _ _ _ agrees _ => agrees)
    (fun _ peer _ paths agrees _ => agrees.send peer (.advertise paths))
    fun _ _ _ _ agrees => agrees

theorem installPaths_agrees (served : env.ServesFib) {paths : List Path}
    (routable : ∀ first ∈ paths.head?, ∀ path ∈ paths, Routable first.family path) :
    Spec (fun state => Agrees state ∧ ∀ first ∈ paths.head?,
        ElementsLead first.family state.rib.locRib paths)
      (installPaths env neighbor paths true) (fun _ => Agrees) (fun _ => Agrees) := by
  cases paths with
  | nil => exact Spec.pure fun state holds => holds.1
  | cons first rest =>
    have routable := routable first (by simp)
    have loop : Spec (fun state => Agrees state ∧
          ElementsLead first.family state.rib.locRib (first :: rest) ∧
          ∀ path ∈ first :: rest, Routable first.family path)
        (collect (installPath env first.family true) (first :: rest))
        (fun _ state => Agrees state ∧ ElementsLead first.family state.rib.locRib [] ∧
          ∀ path ∈ ([] : List Path), Routable first.family path) (fun _ => Agrees) := by
      refine Spec.collect (fun todo _ state => Agrees state ∧
        ElementsLead first.family state.rib.locRib todo ∧
        ∀ path ∈ todo, Routable first.family path) ?_ (first :: rest) []
      intro path todo collected
      by_cases todoRoutable : ∀ other ∈ path :: todo, Routable first.family other
      · refine ((installPath_agrees served (todoRoutable path (by simp))).and
          (installPath_tracks fun locRib => ElementsLead first.family locRib todo)).weaken
          ?_ ?_ fun _ _ holds => holds.1
        · exact fun state holds => ⟨⟨holds.1, holds.2.1.1⟩, holds.2.1.2⟩
        · exact fun _ state holds => ⟨holds.1, holds.2,
            fun other member => todoRoutable other (by simp [member])⟩
      · exact Spec.of_false fun state holds => todoRoutable holds.2.2
    refine (loop.conseq (fun state holds => ⟨holds.1, holds.2 first (by simp), routable⟩)
      fun _ _ holds => holds.1).bind fun changed => advertise_agrees

theorem dropPaths_agrees (served : env.ServesFib) {pathIds : List (IpNet × UInt64)} :
    Spec (fun state => Agrees state ∧ ElementsKeepHops family state.rib.locRib pathIds)
      (dropPaths env neighbor family pathIds true) (fun _ => Agrees) (fun _ => Agrees) := by
  have loop : Spec (fun state => Agrees state ∧
        ElementsKeepHops family state.rib.locRib pathIds)
      (collect (dropPath env family true) pathIds)
      (fun _ state => Agrees state ∧ ElementsKeepHops family state.rib.locRib [])
      (fun _ => Agrees) := by
    refine Spec.collect (fun todo _ state => Agrees state ∧
      ElementsKeepHops family state.rib.locRib todo) ?_ pathIds []
    intro pathId todo collected
    refine ((dropPath_agrees served).and (dropPath_tracks fun locRib =>
      ElementsKeepHops family locRib todo)).weaken ?_ (fun _ _ holds => holds)
      fun _ _ holds => holds.1
    exact fun state holds => ⟨⟨holds.1, holds.2.1⟩, holds.2.2⟩
  refine (loop.implies fun _ _ holds => holds.1).bind fun notices => ?_
  have told : Spec Agrees (withdraw env neighbor (notices.filterMap Notice.withdraw?))
      (fun _ => Agrees) (fun _ => Agrees) :=
    withdraw_spec (fun _ => Agrees) (fun _ _ _ agrees _ => agrees)
      (fun _ peer _ agrees _ => agrees.send peer _) fun _ _ _ _ agrees => agrees
  exact told.bind fun _ => advertise_agrees

end RibManager

/-- Installed paths come without a mark, have a next hop, and lead their list or stay behind its
best paths; with multipath, a dropped best path shares its first hop with no best path that stays,
and paths that become best together share theirs. -/
def KeepsFib (state : RibState) : RibEvent → Prop
  | .installPaths _ paths => ∀ first ∈ paths.head?,
      (∀ path ∈ paths, Routable first.family path) ∧
        RibManager.ElementsLead first.family state.rib.locRib paths
  | .dropPaths _ family pathIds =>
    RibManager.ElementsKeepHops family state.rib.locRib pathIds
  | _ => False

instance (state : RibState) : (event : RibEvent) → Decidable (KeepsFib state event)
  | .installPaths _ _ => inferInstanceAs (Decidable (∀ _ ∈ _, _ ∧ _))
  | .dropPaths _ _ _ => inferInstanceAs (Decidable (RibManager.ElementsKeepHops ..))
  | .setAsn _ | .setRouterId _ | .setMultiPath _ | .addPeer _ | .deletePeer _ | .init _ _
  | .flush _ _ | .addPath _ _ | .deletePath _ _ | .advertise _ | .withdraw _ | .getPath _
  | .getPathByPrefix _ _ => isFalse id

namespace RibState

variable {env : Env} {rib : RibManager} {protocols : List Afi} {multiPath : Bool}
  {events : List RibEvent}

theorem start_agrees (fresh : rib.locRib = .new protocols multiPath)
    (configured : rib.endpoint = true) : Agrees (start rib) := by
  have empty : ∀ afi pfx, rib.locRib.paths afi pfx = [] := by
    intro afi pfx
    rw [fresh, LocRib.new_paths]
  refine ⟨⟨configured, ?_, ?_, ?_⟩, ?_⟩
  · change LocRib.Filed rib.locRib
    rw [fresh]
    exact LocRib.Filed.new ..
  · intro afi pfx
    simpa [start, empty] using BestFirst.nil
  · intro afi pfx path member
    simp [start, empty] at member
  · intro pfx
    simp [start, empty, routeOf, fibRoutes]

theorem apply_agrees (served : env.ServesFib)
    {event : RibEvent} (agrees : Agrees state) (condition : KeepsFib state event) :
    Agrees (state.apply env event) := by
  cases event with
  | installPaths neighbor paths =>
    exact (RibManager.installPaths_agrees served fun first leads => (condition first leads).1).final
      ⟨agrees, fun first leads => (condition first leads).2⟩
  | dropPaths neighbor family pathIds =>
    exact (RibManager.dropPaths_agrees served).final ⟨agrees, condition⟩
  | _ => exact condition.elim

/-- In every run of installed and dropped batches that meet the condition, with a FIB endpoint
that serves every request, the replayed requests give a route exactly to the networks that
have a path, with the first next hops of their best paths as gateways. -/
theorem run_fib_agrees (served : ∀ sent request, env.refuses sent (.fib request) = none)
    (fresh : rib.locRib = .new protocols multiPath) (configured : rib.endpoint = true)
    (steps : AllSteps (apply env) KeepsFib (start rib) events) (pfx : IpNet) :
    let state := (start rib).run env events
    (fibRoutes state.sent pfx = none ↔ state.rib.locRib.paths pfx.afi pfx = []) ∧
      ∀ gateways, fibRoutes state.sent pfx = some gateways → ∀ hop, hop ∈ gateways ↔
        ∃ path ∈ state.rib.locRib.paths pfx.afi pfx,
          path.best = true ∧ path.nextHops.head? = some hop := by
  intro state
  have agrees : Agrees state := foldl_invariant Agrees
    (fun state event agrees condition => apply_agrees served agrees condition)
    (start_agrees fresh configured) steps
  rw [← agrees.routes]
  constructor
  · simp [routeOf]
  · intro gateways route hop
    unfold routeOf at route
    split_ifs at route
    simp only [Option.some.injEq] at route
    rw [← route]
    exact mem_bestHops

def sampleFibEvents (secondHop : IpAddr) : List RibEvent :=
  [.installPaths (sampleNeighbor 0x0a000001 65001) [samplePath 1 0x0a000001 65001 100 [65001]],
    .installPaths (sampleNeighbor 0x0a000002 65002)
      [{ samplePath 2 0x0a000002 65002 100 [65002] with nextHops := [secondHop] }],
    .installPaths (sampleNeighbor 0x0a000003 65003) [samplePath 3 0x0a000003 65003 100 [65003]],
    .dropPaths (sampleNeighbor 0x0a000001 65001) .ipv4Unicast [(sampleNet, 1)]]

def sampleFibRib : RibManager := { sampleRib true with endpoint := true }

theorem run_fib_agrees_of_three :
    ∃ gateways, fibRoutes ((start sampleFibRib).run sampleEnv
        (sampleFibEvents (.v4 0x0a000002))).sent sampleNet = some gateways ∧
      gateways = {.v4 0x0a000002, .v4 0x0a000003} ∧
      ∀ hop, hop ∈ gateways ↔ ∃ path ∈ ((start sampleFibRib).run sampleEnv
          (sampleFibEvents (.v4 0x0a000002))).rib.locRib.paths sampleNet.afi sampleNet,
        path.best = true ∧ path.nextHops.head? = some hop := by
  have fresh : sampleFibRib.locRib = .new [.ipv4] true := rfl
  have steps : AllSteps (apply sampleEnv) KeepsFib (start sampleFibRib)
      (sampleFibEvents (.v4 0x0a000002)) := by decide +kernel
  have route : fibRoutes ((start sampleFibRib).run sampleEnv
      (sampleFibEvents (.v4 0x0a000002))).sent sampleNet =
        some {.v4 0x0a000002, .v4 0x0a000003} := by decide +kernel
  exact ⟨_, route, rfl, (run_fib_agrees (fun _ _ => rfl) fresh rfl steps sampleNet).2 _ route⟩

def isBatch : RibEvent → Bool
  | .installPaths _ _ | .dropPaths _ _ _ => true
  | _ => false

/-- The gateway of a dropped path is removed although another best path uses it. -/
theorem run_not_fib_agrees :
    ¬∀ (events : List RibEvent) (gateways : Finset IpAddr) (hop : IpAddr),
      (∀ event ∈ events, isBatch event = true) →
      fibRoutes ((start sampleFibRib).run sampleEnv events).sent sampleNet = some gateways →
      (∃ path ∈ ((start sampleFibRib).run sampleEnv events).rib.locRib.paths .ipv4 sampleNet,
        path.best = true ∧ path.nextHops.head? = some hop) → hop ∈ gateways := by
  intro claim
  have member := claim (sampleFibEvents (.v4 0x0a000001)) {.v4 0x0a000003} (.v4 0x0a000001)
    (by simp [sampleFibEvents, isBatch]) (by decide +kernel) (by decide +kernel)
  exact absurd member (by decide)

end RibState

end Sart
