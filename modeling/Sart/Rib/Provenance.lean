import Sart.Rib.SplitHorizon

/-!
# Where routes come from

The manager stores paths, tells them to peers and answers queries with them.  It makes none up:
each of them was installed by an event or built for one, and only its marks and its time stamp may
differ.
-/

namespace Sart

open Sart.Lib Sart.Lib.Effect

/-- The event brings the path, apart from marks and time stamp. -/
def RibEvent.Supplies (env : Env) (path : Path) : RibEvent → Prop
  | .installPaths _ paths => ∃ source ∈ paths, path.unmarked = source.unmarked
  | .addPath networks attrs => ∃ state paths,
      RibManager.addPathBuild env state networks attrs = .ok paths ∧
        ∃ source ∈ paths, path.unmarked = source.unmarked
  | _ => False

def Output.paths : Output → List Path
  | .send _ (.advertise paths) | .api paths => paths
  | _ => []

/-- Known paths are stored, each under its network, and have been sent. -/
structure RibState.Backed (known : Path → Prop) (state : RibState) : Prop where
  stored : ∀ afi pfx, ∀ path ∈ state.rib.locRib.paths afi pfx,
    path.unmarked.pfx = pfx ∧ known path.unmarked
  sent : ∀ out ∈ state.sent, ∀ path ∈ out.paths, known path.unmarked

theorem RibState.Backed.put {known : Path → Prop} {state : RibState} (backed : state.Backed known)
    {out : Output} (shown : ∀ path ∈ out.paths, known path.unmarked) :
    (state.put out).Backed known := by
  refine ⟨backed.stored, fun other member => ?_⟩
  rcases List.mem_append.mp member with earlier | now
  · exact backed.sent other earlier
  · exact List.mem_singleton.mp now ▸ shown

namespace RibManager

variable {known : Path → Prop} {env : Env} {family : AddressFamily} {path : Path}
  {applyToFib : Bool} {paths : List Path} (neighbor : NeighborPair)

theorem fibStable_backed : FibStable (RibState.Backed known) :=
  fun _ _ backed => backed.put (by simp [Output.paths])

theorem installPath_backed (isKnown : known path.unmarked) :
    Keeps (RibState.Backed known) (installPath env family applyToFib path) := by
  have kept (state : RibState) (backed : state.Backed known) :
      (state.withLocRib (state.rib.locRib.insert family path).2).Backed known :=
    ⟨LocRib.forall_mem_insert (fun _ pfx path => path.pfx = pfx ∧ known path) backed.stored
      ⟨rfl, isKnown⟩, backed.sent⟩
  refine (installPath_spec (fun _ => RibState.Backed known) (fun _ => fibStable_backed)
    (fun state _ backed _ => kept state backed) (fun state _ backed _ => kept state backed)
    fun _ _ _ backed _ _ => backed).implies ?_
  rintro changed state ⟨status, backed, -⟩
  exact backed

theorem dropPath_backed (pathId : IpNet × UInt64) :
    Keeps (RibState.Backed known) (dropPath env family applyToFib pathId) := by
  have kept (state : RibState) (backed : state.Backed known) :
      (state.withLocRib (state.rib.locRib.drop family pathId.1 pathId.2).2).Backed known :=
    ⟨LocRib.forall_mem_drop (fun _ pfx path => path.pfx = pfx ∧ known path) backed.stored,
      backed.sent⟩
  refine (dropPath_spec (fun _ => RibState.Backed known) (fun _ => fibStable_backed)
    (fun state _ backed _ => kept state backed) (fun state _ backed _ => kept state backed)
    fun _ _ _ backed _ _ => backed).implies ?_
  rintro notices state ⟨status, backed, -⟩
  exact backed

theorem advertise_backed (skip : RibManager → NeighborPair → PathKind → Bool)
    (changed : List (IpNet × UInt64)) :
    Keeps (RibState.Backed known) (advertise env family skip changed) := by
  refine advertise_spec (fun _ => RibState.Backed known) (fun _ _ _ backed _ => backed) ?_
    fun _ _ _ _ backed => backed
  intro state peer rest paths backed result
  refine backed.put fun path member => ?_
  rcases mem_of_advertised_eq_ok result member with ⟨entry, _, found, _⟩
  rw [LocRib.getById_eq] at found
  exact (backed.stored _ _ path (List.mem_of_find?_eq_some found)).2

theorem installPaths_backed (areKnown : ∀ path ∈ paths, known path.unmarked) :
    Keeps (RibState.Backed known) (installPaths env neighbor paths applyToFib) := by
  cases paths with
  | nil => exact Keeps.pure
  | cons first rest =>
    refine Keeps.bind (Keeps.collect_of_mem fun path member => ?_) fun changed => ?_
    · exact installPath_backed (areKnown path member)
    · exact advertise_backed _ changed

theorem dropPaths_backed (pathIds : List (IpNet × UInt64)) :
    Keeps (RibState.Backed known) (dropPaths env neighbor family pathIds applyToFib) := by
  refine Keeps.bind (Keeps.collect dropPath_backed pathIds) fun notices => ?_
  refine Keeps.bind (withdraw_spec (fun _ => RibState.Backed known) (fun _ _ _ backed _ => backed)
    (fun _ _ _ backed _ => backed.put (by simp [Output.paths])) fun _ _ _ _ backed => backed) ?_
  exact fun _ => advertise_backed _ _

/-- Stored paths are shown, to a peer or to the API. -/
theorem output_backed {rib : RibManager} {out : Output}
    (stored : ∀ path ∈ out.paths, ∃ afi pfx, path ∈ rib.locRib.paths afi pfx) :
    Spec (fun state => rib = state.rib ∧ state.Backed known) (RibM.output env out)
      (fun _ => RibState.Backed known) (fun _ => RibState.Backed known) := by
  refine RibM.output_spec ?_ fun _ _ holds _ => holds.2
  rintro state ⟨rfl, backed⟩
  refine backed.put fun path member => ?_
  rcases stored path member with ⟨afi, pfx, stored⟩
  exact (backed.stored afi pfx path stored).2

theorem init_backed : Keeps (RibState.Backed known) (init env family neighbor) := by
  refine Spec.read.bind fun rib => ?_
  cases found : rib.locRib.getAllBest family with
  | none => exact Spec.pure fun _ holds => holds.2
  | some bests =>
    dsimp only
    split_ifs
    · refine output_backed fun path member => ?_
      rcases head_of_mem_getAllBest found (List.mem_filter.mp member).1 with ⟨pfx, head⟩
      exact ⟨family.afi, pfx, List.mem_of_mem_head? head⟩
    · exact Spec.fail fun _ holds => holds.2

theorem getPath_backed : Keeps (RibState.Backed known) (getPath env family) := by
  refine Spec.read.bind fun rib => ?_
  cases found : rib.locRib.getAll family with
  | none => exact Spec.pure fun _ holds => holds.2
  | some paths =>
    refine output_backed fun path member => ?_
    rcases Option.map_eq_some_iff.mp found with ⟨table, lookup, rfl⟩
    rcases List.mem_flatMap.mp member with ⟨⟨pfx, stored⟩, entry, among⟩
    refine ⟨family.afi, pfx, ?_⟩
    have here : table.lookup pfx = some stored := AList.mem_lookup_iff.mpr entry
    simpa [LocRib.paths, lookup, here] using among

theorem getPathByPrefix_backed (pfx : IpNet) :
    Keeps (RibState.Backed known) (getPathByPrefix env pfx family) := by
  refine Spec.read.bind fun rib => ?_
  rcases rib.locRib.get_eq_none_or_paths family pfx with ⟨missing, -⟩ | found
  · rw [missing]
    exact Spec.pure fun _ holds => holds.2
  · rw [found]
    exact output_backed fun path member => ⟨family.afi, pfx, member⟩

theorem handle_backed {event : RibEvent}
    (supplied : ∀ path, event.Supplies env path → known path.unmarked) :
    Keeps (RibState.Backed known) (handle env event) := by
  cases event with
  | setAsn asn | setRouterId id | setMultiPath enable =>
    exact Spec.of_ends fun _ backed => ⟨backed.stored, backed.sent⟩
  | addPeer neighbor | deletePeer neighbor =>
    refine Keeps.bind Keeps.read fun rib => ?_
    split_ifs
    all_goals first
      | exact Keeps.fail
      | exact RibM.modifyRib_spec fun _ backed => ⟨backed.stored, backed.sent⟩
  | init family neighbor => exact init_backed neighbor
  | flush family neighbor => exact Keeps.pure
  | addPath networks attrs =>
    refine Keeps.readState fun state => ?_
    refine Spec.bind (Spec.lift fun state backed => ⟨fun _ _ => backed, fun _ => backed⟩)
      fun paths => ?_
    refine Spec.fact_pre fun built => installPaths_backed _ fun path member => ?_
    exact supplied path ⟨state, paths, built, path, member, rfl⟩
  | deletePath family networks =>
    exact Keeps.bind Keeps.read fun rib => dropPaths_backed _ _
  | installPaths neighbor paths =>
    exact installPaths_backed neighbor fun path member => supplied path ⟨path, member, rfl⟩
  | dropPaths neighbor family pathIds => exact dropPaths_backed neighbor pathIds
  | getPath family => exact getPath_backed
  | getPathByPrefix pfx family => exact getPathByPrefix_backed pfx
  | advertise paths | withdraw networks => exact Keeps.fail

end RibManager

theorem RibState.run_backed {known : Path → Prop} {env : Env} {events : List RibEvent}
    (supplied : ∀ event ∈ events, ∀ path, event.Supplies env path → known path.unmarked)
    {state : RibState} (backed : state.Backed known) : (state.run env events).Backed known :=
  foldl_invariant (RibState.Backed known)
    (fun _ _ backed here => (RibManager.handle_backed here).final backed) backed
    (allSteps_of_forall supplied)

/-- Whatever events a manager has handled, every path that it stores, has told a peer or has
answered with was brought by one of them. -/
theorem RibState.run_supplied (env : Env) (asn : UInt32) (routerId : Ipv4Addr) (endpoint : Bool)
    (tableId : UInt8) (protocols : List Afi) (multiPath : Bool) (events : List RibEvent) :
    ((start (.new asn routerId endpoint tableId protocols multiPath)).run env events).Backed
      fun path => ∃ event ∈ events, event.Supplies env path := by
  refine run_backed ?_ ⟨?_, by simp [start]⟩
  · intro event member path supplies
    refine ⟨event, member, ?_⟩
    cases event <;> exact supplies
  · simp [start, RibManager.new]

end Sart
