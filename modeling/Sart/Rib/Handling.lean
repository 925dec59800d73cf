import Sart.Rib.Cases
import Sart.Rib.Manager

/-!
# Rules for the handlers of the manager

One rule for each primitive effect of the manager, from which the triples of the
handlers are put together, and the two phases in which a batch is handled: the
loop over its elements, which only talks to the FIB endpoint, and the
notification of the peers, which leaves the manager alone.
-/

namespace Sart

open Sart.Lib Sart.Lib.Effect

namespace RibM

variable {pre : RibState → Prop} {abort : Option Error → RibState → Prop}
  {post : PUnit → RibState → Prop}

theorem modifyRib_spec {change : RibManager → RibManager}
    (changed : ∀ state, pre state → post ⟨⟩ { state with rib := change state.rib }) :
    Spec pre (modifyRib change) post abort := Spec.of_ends changed

theorem onLocRib_spec {call : LocRib → Except Error LocRibStatus × LocRib}
    {post : LocRibStatus → RibState → Prop}
    (returned : ∀ state status, pre state → (call state.rib.locRib).1 = .ok status →
      post status (state.withLocRib (call state.rib.locRib).2))
    (failed : ∀ state cause, pre state → (call state.rib.locRib).1 = .error cause →
      abort (some cause) (state.withLocRib (call state.rib.locRib).2)) :
    Spec pre (onLocRib call) post abort := by
  refine Spec.of_ends fun state start => ?_
  unfold onLocRib
  cases result : (call state.rib.locRib).1 with
  | ok status => exact returned state status start result
  | error cause => exact failed state cause start result

theorem output_spec {env : Env} {out : Output}
    (served : ∀ state, pre state → post ⟨⟩ (state.put out))
    (refused : ∀ state cause, pre state → env.refuses state.sent out ≠ none →
      abort (some cause) state) :
    Spec pre (output env out) post abort := by
  refine Spec.of_ends fun state start => ?_
  unfold output
  split
  · exact served state start
  all_goals
    rename_i answer
    exact refused state _ start (by simp [answer])

end RibM

namespace RibManager

open RibM

variable {env : Env} {invariant : RibState → Prop}

def FibStable (invariant : RibState → Prop) : Prop :=
  ∀ state request, invariant state → invariant (state.put (.fib request))

/-- Why a request to the FIB endpoint may fail: one of the paths has no next hop, or the request is
refused. -/
def FibTrouble (env : Env) (paths : List Path) (state : RibState) : Prop :=
  (state.rib.endpoint = true ∧ ∃ path ∈ paths, path.nextHops = []) ∨
    ∃ request, env.refuses state.sent (.fib request) ≠ none

variable {paths : List Path} {family : AddressFamily}

theorem not_fibTrouble (served : env.ServesFib)
    {state : RibState} (routed : state.rib.endpoint = true → ∀ path ∈ paths, path.nextHops ≠ []) :
    ¬FibTrouble env paths state := by
  rintro (⟨endpoint, path, member, none⟩ | ⟨request, refused⟩)
  · exact routed endpoint path member none
  · exact refused (served _ _)

variable {applyToFib : Bool} {abort : Option Error → RibState → Prop}

theorem applyPath_spec {path : Path} (stable : FibStable invariant)
    (givenUp : ∀ cause state, invariant state → applyToFib = true → FibTrouble env [path] state →
      abort (some cause) state) (request : RibManager → Path → IpAddr → FibRequest) :
    Spec invariant (applyPath env applyToFib request path) (fun _ => invariant) abort := by
  refine Spec.read.bind fun rib => ?_
  split_ifs with configured
  · rw [Bool.and_eq_true] at configured
    split
    · rename_i none
      refine Spec.fail ?_
      rintro state ⟨rfl, holds⟩
      exact givenUp _ state holds configured.1 (.inl ⟨configured.2, path, by simp, none⟩)
    · refine output_spec (fun state holds => stable state _ holds.2) ?_
      exact fun state cause holds refused => givenUp cause state holds.2 configured.1
        (.inr ⟨_, refused⟩)
  · exact Spec.pure fun state holds => holds.2

theorem applyRequest_spec (stable : FibStable invariant)
    (givenUp : ∀ cause state, invariant state → applyToFib = true → FibTrouble env [] state →
      abort (some cause) state) (request : RibManager → FibRequest) :
    Spec invariant (applyRequest env applyToFib request) (fun _ => invariant) abort := by
  refine Spec.read.bind fun rib => ?_
  split_ifs with configured
  · rw [Bool.and_eq_true] at configured
    refine output_spec (fun state holds => stable state _ holds.2) ?_
    exact fun state cause holds refused => givenUp cause state holds.2 configured.1
      (.inr ⟨_, refused⟩)
  · exact Spec.pure fun state holds => holds.2

theorem findPath_found {pfx : IpNet} {id : UInt64} {abort : Option Error → RibState → Prop}
    (stored : ∀ state, invariant state → ∃ path,
      state.rib.locRib.getById family pfx id = some path) :
    Spec invariant (findPath family pfx id)
      (fun path state => state.rib.locRib.getById family pfx id = some path ∧ invariant state)
      abort := by
  refine Spec.read.bind fun rib => ?_
  split
  · rename_i path found
    refine Spec.pure fun state holds => ⟨?_, holds.2⟩
    rw [← holds.1]
    exact found
  rename_i missing
  refine Spec.fail fun state holds => ?_
  rcases stored state holds.2 with ⟨path, found⟩
  rw [← holds.1, missing] at found
  cases found

theorem mem_of_advertised_eq_ok {rib : RibManager} {skip : PathKind → Bool}
    {changed : List (IpNet × UInt64)} (result : rib.advertised family skip changed = .ok paths)
    {path : Path} (member : path ∈ paths) :
    ∃ entry ∈ changed, rib.locRib.getById family entry.1 entry.2 = some path ∧
      skip path.kind = false := by
  induction changed generalizing paths with
  | nil =>
    simp only [advertised, Outcome.ok.injEq] at result
    simp [← result] at member
  | cons entry rest ih =>
    rcases entry with ⟨pfx, id⟩
    simp only [advertised] at result
    cases found : rib.locRib.getById family pfx id with
    | none => simp [found] at result
    | some stored =>
      simp only [found] at result
      rcases Outcome.bind_eq_ok.mp result with ⟨others, othersOk, shape⟩
      simp only [Outcome.ok.injEq] at shape
      have fromRest : path ∈ others → ∃ entry ∈ (pfx, id) :: rest,
          rib.locRib.getById family entry.1 entry.2 = some path ∧
            skip path.kind = false := by
        intro later
        rcases ih othersOk later with ⟨entry, entryMem, lookup⟩
        exact ⟨entry, by simp [entryMem], lookup⟩
      subst shape
      split at member
      · exact fromRest member
      rename_i offered
      rcases List.mem_cons.mp member with rfl | later
      · exact ⟨(pfx, id), by simp, found, by simpa using offered⟩
      · exact fromRest later

variable {pre : RibState → Prop}

def changedBy : LocRibStatus → List (IpNet × UInt64)
  | .bestPathChanged pfx id => [(pfx, id)]
  | _ => []

def noticesOf : LocRibStatus → List Notice
  | .bestPathChanged pfx id => [.advertise pfx id]
  | .withdrawn pfx kind => [.withdraw pfx kind]
  | _ => []

variable {path : Path} {pathId : IpNet × UInt64} (property : LocRib → Prop)
  (middle : LocRibStatus → RibState → Prop)

theorem installPath_spec (stable : ∀ status, FibStable (middle status))
    (returned : ∀ state status, pre state →
      (state.rib.locRib.insert family path).1 = .ok status →
      middle status (state.withLocRib (state.rib.locRib.insert family path).2))
    (failed : ∀ state cause, pre state →
      (state.rib.locRib.insert family path).1 = .error cause →
      abort (some cause) (state.withLocRib (state.rib.locRib.insert family path).2))
    (givenUp : ∀ status cause state, middle status state → applyToFib = true →
      FibTrouble env [path] state → abort (some cause) state) :
    Spec pre (installPath env family applyToFib path)
      (fun changed state => ∃ status, middle status state ∧ changed = changedBy status)
      abort := by
  refine (onLocRib_spec returned failed).bind fun status => ?_
  have kept := applyPath_spec (stable status) (givenUp status)
  cases status with
  | bestPathChanged pfx id =>
    exact (kept addRouteRequest).bind fun _ => Spec.pure fun state holds => ⟨_, holds, rfl⟩
  | multiPathAdded =>
    exact (kept addMultiPathRouteRequest).bind fun _ =>
      Spec.pure fun state holds => ⟨_, holds, rfl⟩
  | _ => exact Spec.pure fun state holds => ⟨_, holds, rfl⟩

theorem dropPath_spec (stable : ∀ status, FibStable (middle status))
    (returned : ∀ state status, pre state →
      (state.rib.locRib.drop family pathId.1 pathId.2).1 = .ok status →
      middle status (state.withLocRib (state.rib.locRib.drop family pathId.1 pathId.2).2))
    (failed : ∀ state cause, pre state →
      (state.rib.locRib.drop family pathId.1 pathId.2).1 = .error cause →
      abort (some cause) (state.withLocRib (state.rib.locRib.drop family pathId.1 pathId.2).2))
    (givenUp : ∀ status cause state, middle status state → applyToFib = true →
      FibTrouble env (state.rib.locRib.paths family.afi pathId.1) state →
        abort (some cause) state) :
    Spec pre (dropPath env family applyToFib pathId)
      (fun notices state => ∃ status, middle status state ∧ notices = noticesOf status)
      abort := by
  have drops : Spec pre (onLocRib fun locRib => locRib.drop family pathId.1 pathId.2)
      (fun status state => LocRib.ReportsOn family pathId.1 state.rib.locRib status ∧
        middle status state) abort :=
    onLocRib_spec (fun state status start result =>
      ⟨LocRib.drop_reportsOn result, returned state status start result⟩) failed
  refine drops.bind fun status => ?_
  -- the path a status names leads the list, so that it is found
  have found : ∀ pfx id, (∀ state : RibState,
      LocRib.ReportsOn family pathId.1 state.rib.locRib status → pfx = pathId.1 ∧
        ∃ head ∈ (state.rib.locRib.paths family.afi pathId.1).head?, head.id = id) →
      Spec (fun state => LocRib.ReportsOn family pathId.1 state.rib.locRib status ∧
        middle status state) (findPath family pfx id) (fun path state =>
          path ∈ state.rib.locRib.paths family.afi pathId.1 ∧ middle status state) abort := by
    intro pfx id reports
    refine (findPath_found ?_).implies ?_
    · rintro state ⟨status, _⟩
      rcases reports state status with ⟨rfl, head, leads, rfl⟩
      exact ⟨head, LocRib.getById_of_head leads⟩
    rintro path state ⟨lookup, status, holds⟩
    rcases reports state status with ⟨rfl, _⟩
    rw [LocRib.getById_eq] at lookup
    exact ⟨List.mem_of_find?_eq_some lookup, holds⟩
  have requested := applyRequest_spec (stable status) fun cause state holds applied trouble =>
    givenUp status cause state holds applied (trouble.imp_left fun ⟨_, _, absent, _⟩ =>
      by cases absent)
  cases status with
  | bestPathChanged pfx id =>
    refine (found pfx id fun _ reports => reports).bind fun path => ?_
    refine (applyPath_spec ?_ ?_ _).bind fun _ => Spec.pure fun state holds => ⟨_, holds.2, rfl⟩
    · exact fun state request holds => ⟨holds.1, stable _ state request holds.2⟩
    refine fun cause state holds applied trouble => givenUp _ cause state holds.2 applied ?_
    refine trouble.imp_left fun ⟨endpoint, other, member, hopless⟩ =>
      ⟨endpoint, path, holds.1, ?_⟩
    rwa [← List.mem_singleton.mp member]
  | multiPathWithdrawn pfx id gateway =>
    refine (found pfx id fun _ reports => reports).bind fun path => ?_
    cases gateway with
    | some gateway =>
      refine Spec.bind ((requested _).conseq (fun state holds => holds.2) fun _ _ holds => holds)
        fun _ => Spec.pure fun state holds => ⟨_, holds, rfl⟩
    | none => exact Spec.pure fun state holds => ⟨_, holds.2, rfl⟩
  | withdrawn pfx kind =>
    refine Spec.bind ((requested _).conseq (fun state holds => holds.2) fun _ _ holds => holds)
      fun _ => Spec.pure fun state holds => ⟨_, holds, rfl⟩
  | _ => exact Spec.pure fun state holds => ⟨_, holds.2, rfl⟩

theorem installPath_tracks :
    Spec (fun state => property (state.rib.locRib.insert family path).2)
      (installPath env family applyToFib path) (fun _ state => property state.rib.locRib)
      (fun _ _ => True) := by
  refine (installPath_spec (fun _ state => property state.rib.locRib) ?_ ?_ ?_ ?_).implies ?_
  · exact fun _ _ _ holds => holds
  · exact fun _ _ holds _ => holds
  · exact fun _ _ _ _ => trivial
  · exact fun _ _ _ _ _ _ => trivial
  · rintro _ state ⟨_, holds, _⟩
    exact holds

theorem dropPath_tracks :
    Spec (fun state => property (state.rib.locRib.drop family pathId.1 pathId.2).2)
      (dropPath env family applyToFib pathId) (fun _ state => property state.rib.locRib)
      (fun _ _ => True) := by
  refine (dropPath_spec (fun _ state => property state.rib.locRib) ?_ ?_ ?_ ?_).implies ?_
  · exact fun _ _ _ holds => holds
  · exact fun _ _ holds _ => holds
  · exact fun _ _ _ _ => trivial
  · exact fun _ _ _ _ _ _ => trivial
  · rintro _ state ⟨_, holds, _⟩
    exact holds

variable {skip : RibManager → NeighborPair → PathKind → Bool} {changed : List (IpNet × UInt64)}
  {neighbor : NeighborPair} {withdrawn : List (IpNet × PathKind)}

theorem advertise_spec (invariant : List NeighborPair → RibState → Prop)
    (quiet : ∀ state peer rest, invariant (peer :: rest) state →
      state.rib.advertised family (skip state.rib peer) changed = .ok [] →
      invariant rest state) (sends : ∀ state peer rest paths, invariant (peer :: rest) state →
      state.rib.advertised family (skip state.rib peer) changed = .ok paths →
      invariant rest (state.put (.send peer (.advertise paths))))
    (failed : ∀ state peer rest cause, invariant (peer :: rest) state → abort cause state) :
    Spec (fun state => invariant state.rib.peers state) (advertise env family skip changed)
      (fun _ => invariant []) abort := by
  refine Spec.read.bind fun rib => ?_
  refine (Spec.forEach
    (fun rest (state : RibState) => state.rib = rib ∧ invariant rest state) ?_ rib.peers).conseq ?_
      ?_
  · intro peer rest
    refine (Spec.lift fun state holds => ⟨fun cause _ => failed state peer rest _ holds.2,
      fun _ => failed state peer rest _ holds.2⟩).bind fun paths => ?_
    split
    · rename_i none
      refine Spec.pure fun state holds => ⟨holds.2.1, quiet state peer rest holds.2.2 ?_⟩
      rw [holds.2.1, holds.1, List.isEmpty_iff.mp none]
    refine output_spec (fun state holds => ⟨holds.2.1, sends state peer rest paths holds.2.2 ?_⟩)
      fun state cause holds _ => failed state peer rest cause holds.2.2
    rw [holds.2.1, holds.1]
  · rintro state ⟨rfl, holds⟩
    exact ⟨rfl, holds⟩
  · exact fun _ state holds => holds.2

theorem withdraw_spec (invariant : List NeighborPair → RibState → Prop)
    (quiet : ∀ state peer rest, invariant (peer :: rest) state →
      state.rib.withdrawnFor neighbor peer withdrawn = [] → invariant rest state)
    (sends : ∀ state peer rest, invariant (peer :: rest) state →
      state.rib.withdrawnFor neighbor peer withdrawn ≠ [] →
      invariant rest (state.put (.send peer (.withdraw
        (state.rib.withdrawnFor neighbor peer withdrawn)))))
    (failed : ∀ state peer rest cause, invariant (peer :: rest) state → abort cause state) :
    Spec (fun state => invariant state.rib.peers state) (withdraw env neighbor withdrawn)
      (fun _ => invariant []) abort := by
  refine Spec.read.bind fun rib => ?_
  refine (Spec.forEach
    (fun rest (state : RibState) => state.rib = rib ∧ invariant rest state) ?_ rib.peers).conseq ?_
      ?_
  · intro peer rest
    split
    · rename_i none
      refine Spec.pure fun state holds => ⟨holds.1, quiet state peer rest holds.2 ?_⟩
      rw [holds.1]
      exact List.isEmpty_iff.mp none
    rename_i some
    refine output_spec (fun state holds => ⟨holds.1, ?_⟩)
      fun state cause holds _ => failed state peer rest cause holds.2
    have sent := sends state peer rest holds.2
    rw [holds.1] at sent
    exact sent (by simpa using some)
  · rintro state ⟨rfl, holds⟩
    exact ⟨rfl, holds⟩
  · exact fun _ state holds => holds.2

theorem advertise_rib (property : RibManager → Prop) :
    Spec (fun state => property state.rib) (advertise env family skip changed)
      (fun _ state => property state.rib) (fun _ state => property state.rib) :=
  advertise_spec (fun _ state => property state.rib) (fun _ _ _ holds _ => holds)
    (fun _ _ _ _ holds _ => holds) fun _ _ _ _ holds => holds

theorem withdraw_rib (property : RibManager → Prop) :
    Spec (fun state => property state.rib) (withdraw env neighbor withdrawn)
      (fun _ state => property state.rib) (fun _ state => property state.rib) :=
  withdraw_spec (fun _ state => property state.rib) (fun _ _ _ holds _ => holds)
    (fun _ _ _ holds _ => holds) fun _ _ _ _ holds => holds

end RibManager

end Sart
