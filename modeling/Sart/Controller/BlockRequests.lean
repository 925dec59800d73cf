import Sart.Controller.Blocks
import Sart.Lib.Run

/-!
# Requests and their blocks

A request is reconciled any number of times, and every call of the API may fail.  Each
time the pool has a free block, the reconciler takes it.
-/

namespace Sart

open Sart.Lib

namespace BlockController

structure Taking (state : BlockController) (answers : BlockAnswers) (br : BlockRequest)
    (ap : AddressPool) (cidr : IpNet) (pool : Pool) (index : ℕ) : Prop where
  requested : state.requestedPool answers br = .ok (ap, cidr)
  found : state.allocator.lookup ap.name = some pool
  free : pool.allocator.getMinUnsetIndex = .ok index

def nextBlock (state : BlockController) (answers : BlockAnswers) (br : BlockRequest) :
    Option (AddressPool × IpNet × Pool × ℕ) :=
  match state.requestedPool answers br with
  | .ok (ap, cidr) =>
    (state.allocator.lookup ap.name).bind fun pool =>
      match pool.allocator.getMinUnsetIndex with
      | .ok index => some (ap, cidr, pool, index)
      | _ => none
  | _ => none

theorem nextBlock_eq_some {state : BlockController} {answers : BlockAnswers} {br : BlockRequest}
    {ap : AddressPool} {cidr : IpNet} {pool : Pool} {index : ℕ} :
    state.nextBlock answers br = some (ap, cidr, pool, index) ↔
      state.Taking answers br ap cidr pool index := by
  constructor
  · intro taken
    unfold nextBlock at taken
    split at taken
    · rename_i ap' cidr' requested
      rcases Option.bind_eq_some_iff.mp taken with ⟨pool', found, taken⟩
      split at taken
      · rename_i index' free
        rcases taken with ⟨rfl, rfl, rfl, rfl⟩
        exact ⟨requested, found, free⟩
      · simp at taken
    · simp at taken
  · intro taking
    rw [nextBlock, taking.requested]
    dsimp only
    rw [taking.found, Option.bind_some, taking.free]

def Completes (state : BlockController) (answers : BlockAnswers) (ap : AddressPool) (cidr : IpNet)
    (pool : Pool) (index : ℕ) : Prop :=
  pool.counter + 1 < 2 ^ 32 ∧ (blockCidr cidr ap.blockSize index).isOk = true ∧
    answers.getBlock = true ∧ state.blocks.lookup (blockName ap.name pool.counter) = none ∧
    answers.create = true
  deriving Decidable

structure Alike (state next : BlockController) : Prop where
  pools : next.pools = state.pools
  blocks : next.blocks = state.blocks
  created : next.created = state.created
  cleaned : next.cleaned = state.cleaned
  lookup : ∀ name, next.allocator.lookup name = state.allocator.lookup name

variable {state : BlockController} {answers : BlockAnswers} {br : BlockRequest} {ap : AddressPool}
  {pool : Pool} {cidr : IpNet} {index : ℕ}

theorem Alike.refl (state : BlockController) : state.Alike state :=
  ⟨rfl, rfl, rfl, rfl, fun _ => rfl⟩

theorem Alike.withPool (found : state.allocator.lookup ap.name = some pool) :
    state.Alike (state.withPool ap.name pool) := by
  refine ⟨rfl, rfl, rfl, rfl, fun name => ?_⟩
  rw [BlockController.withPool, Table.lookup_insert]
  split_ifs with same
  · rw [same, found]
  · rfl

theorem reconcileRequest_idle (idle : ∀ ap cidr pool index,
    ¬state.Taking answers br ap cidr pool index) :
    state.Alike (reconcileRequest answers br state).2 := by
  unfold reconcileRequest
  rcases requested : state.requestedPool answers br with ⟨ap, cidr⟩ | cause | _
  · dsimp only
    cases found : state.allocator.lookup ap.name with
    | none =>
      rw [takeBlock, found]
      exact .refl state
    | some pool =>
      have full : ∀ index, pool.allocator.getMinUnsetIndex ≠ .ok index :=
        fun index free => idle ap cidr pool index ⟨requested, found, free⟩
      rw [takeBlock, found]
      dsimp only
      rw [Pool.allocate_of_full full]
      exact .withPool found
  all_goals exact .refl state

theorem reconcileRequest_taking (taking : state.Taking answers br ap cidr pool index) :
    ∃ next : Pool, next.cidr = pool.cidr ∧ next.blockSize = pool.blockSize ∧
      (∀ other, next.uses other = if other = index then true else pool.uses other) ∧
      (next.counter = if pool.counter + 1 < 2 ^ 32 then pool.counter + 1 else pool.counter) ∧
      (state.Completes answers ap cidr pool index → ∃ block,
        (reconcileRequest answers br state).2 = (state.withPool ap.name next).withBlock answers br
          (blockObject ap br (blockName ap.name pool.counter) index block)) ∧
      (¬state.Completes answers ap cidr pool index →
        (reconcileRequest answers br state).2 = state.withPool ap.name next) := by
  rcases Pool.allocate_of_free taking.free (blockName ap.name pool.counter) with
    ⟨next, final, sameCidr, sameSize, uses, room, noRoom⟩
  refine ⟨next, sameCidr, sameSize, uses, ?_⟩
  by_cases fits : pool.counter + 1 < 2 ^ 32
  · rcases room fits with ⟨ran, counted⟩
    have took : takeBlock ap.name state =
        (.ok (index, blockName ap.name pool.counter), state.withPool ap.name next) := by
      rw [takeBlock, taking.found]
      dsimp only
      rw [ran]
      rfl
    rw [if_pos fits]
    refine ⟨counted, ?_⟩
    unfold reconcileRequest Completes
    rw [taking.requested]
    dsimp only
    rw [took]
    dsimp only
    cases computed : blockCidr cidr ap.blockSize index with
    | ok block =>
      rw [submitBlock_final]
      refine ⟨fun completes => ⟨block, if_pos completes.2.2⟩, fun stopped => if_neg ?_⟩
      intro clear
      exact stopped ⟨fits, rfl, clear⟩
    | error cause | panic =>
      exact ⟨fun completes => absurd completes.2.1 (by simp [Outcome.isOk]), fun _ => rfl⟩
  · rcases noRoom fits with ⟨ran, counted⟩
    rw [if_neg fits]
    refine ⟨counted, fun completes => absurd completes.1 fits, fun _ => ?_⟩
    have took : takeBlock ap.name state = (.panic, state.withPool ap.name next) := by
      rw [takeBlock, taking.found]
      dsimp only
      rw [ran]
      rfl
    unfold reconcileRequest
    rw [taking.requested]
    dsimp only
    rw [took]

def Owned (state : BlockController) : Prop :=
  ∀ pool index, state.uses pool index = true →
    ∃ name ab, state.blocks.lookup name = some ab ∧ ab.poolRef = pool ∧ ab.index = some index

def Marked (state : BlockController) : Prop :=
  ∀ name ab index, state.blocks.lookup name = some ab → ab.index = some index →
    state.knows ab.poolRef = true → state.uses ab.poolRef index = true

def ServedOnce (state : BlockController) : Prop := state.created.Nodup
  deriving Decidable

def serve (state : BlockController) (call : BlockRequest × BlockAnswers) : BlockController :=
  (reconcileRequest call.2 call.1 state).2

/-- The condition on a call: if it takes a block, it is the first to do so for its request and
goes through to the end. -/
def GoesThrough (state : BlockController) (call : BlockRequest × BlockAnswers) : Prop :=
  ∀ taken ∈ state.nextBlock call.2 call.1,
    state.Completes call.2 taken.1 taken.2.1 taken.2.2.1 taken.2.2.2 ∧ call.2.patchStatus = true ∧
      call.1.uid ∉ state.created
  deriving Decidable

variable {next : BlockController} {call : BlockRequest × BlockAnswers}

theorem goesThrough_iff : state.GoesThrough call ↔
    ∀ ap cidr pool index, state.Taking call.2 call.1 ap cidr pool index →
      state.Completes call.2 ap cidr pool index ∧ call.2.patchStatus = true ∧
        call.1.uid ∉ state.created := by
  constructor
  · intro through ap cidr pool index taking
    exact through _ (nextBlock_eq_some.mpr taking)
  · rintro through ⟨ap, cidr, pool, index⟩ taken
    exact through ap cidr pool index (nextBlock_eq_some.mp taken)

theorem Alike.uses (alike : state.Alike next) (name : String) (index : ℕ) :
    next.uses name index = state.uses name index := by
  rw [BlockController.uses, alike.lookup, BlockController.uses]

theorem Alike.owned (alike : state.Alike next) (owned : state.Owned) : next.Owned := by
  intro name index used
  rw [alike.uses] at used
  rw [alike.blocks]
  exact owned name index used

theorem Alike.marked (alike : state.Alike next) (marked : state.Marked) : next.Marked := by
  intro name ab index found own known
  rw [alike.blocks] at found
  rw [knows, alike.lookup] at known
  rw [alike.uses]
  exact marked name ab index found own known

section

variable (taking : state.Taking call.2 call.1 ap cidr pool index)

include taking

theorem Taking.knows :
    state.knows ap.name = true := by
  rw [BlockController.knows, taking.found, Option.isSome_some]

theorem Taking.uses_self :
    state.uses ap.name index = false := by
  rw [uses_of_lookup taking.found]
  exact (Pool.free_of_minimum taking.free).2

theorem Taking.uses_withPool {next : Pool}
    (uses : ∀ other, next.uses other = if other = index then true else pool.uses other)
    (name : String) (other : ℕ) : (state.withPool ap.name next).uses name other =
      if name = ap.name ∧ other = index then true else state.uses name other := by
  rw [BlockController.uses_withPool, uses]
  by_cases same : name = ap.name
  · subst same
    rw [if_pos rfl, uses_of_lookup taking.found]
    simp
  · rw [if_neg same, if_neg fun both => same both.1]

theorem Taking.unowned (marked : state.Marked) {name : String} {ab : AddressBlock}
    (found : state.blocks.lookup name = some ab) (ref : ab.poolRef = ap.name) :
    ab.index ≠ some index := by
  intro own
  have used := marked name ab index found own (ref ▸ taking.knows)
  rw [ref, taking.uses_self] at used
  exact Bool.false_ne_true used

end

theorem serve_kept (owned : state.Owned) (marked : state.Marked) (once : state.ServedOnce)
    (through : state.GoesThrough call) :
    (state.serve call).Owned ∧ (state.serve call).Marked ∧ (state.serve call).ServedOnce := by
  by_cases idle : ∀ ap cidr pool index, ¬state.Taking call.2 call.1 ap cidr pool index
  · have alike := reconcileRequest_idle idle
    refine ⟨alike.owned owned, alike.marked marked, ?_⟩
    rw [ServedOnce, serve, alike.created]
    exact once
  push Not at idle
  rcases idle with ⟨ap, cidr, pool, index, taking⟩
  rcases goesThrough_iff.mp through ap cidr pool index taking with ⟨completes, patched, first⟩
  rcases reconcileRequest_taking taking with ⟨next, -, -, uses, -, done, -⟩
  rcases done completes with ⟨block, final⟩
  have usesAfter := taking.uses_withPool uses
  have blocks : ∀ name, (state.serve call).blocks.lookup name =
      if name = blockName ap.name pool.counter then
        some (blockObject ap call.1 (blockName ap.name pool.counter) index block)
      else state.blocks.lookup name := by
    intro name
    rw [serve, final, withBlock, patched]
    exact Table.lookup_insert _ _ _ _
  have uses : ∀ name other, (state.serve call).uses name other =
      if name = ap.name ∧ other = index then true else state.uses name other := by
    intro name other
    rw [serve, final]
    exact usesAfter name other
  have knows : ∀ name, (state.serve call).knows name = state.knows name := by
    intro name
    rw [serve, final]
    exact knows_withPool taking.knows next name
  refine ⟨?_, ?_, ?_⟩
  · intro name other used
    rw [uses] at used
    split_ifs at used with here
    · refine ⟨blockName ap.name pool.counter, _, (blocks _).trans (if_pos rfl), here.1.symm, ?_⟩
      rw [here.2]
      rfl
    rcases owned name other used with ⟨owner, ab, found, ref, own⟩
    refine ⟨owner, ab, ?_, ref, own⟩
    rw [blocks, if_neg ?_, found]
    rintro rfl
    rw [completes.2.2.2.1] at found
    simp at found
  · intro name ab other found own known
    rw [blocks] at found
    rw [uses]
    split_ifs at found with new
    · rw [Option.some.injEq] at found
      subst found
      rw [blockObject, Option.some.injEq] at own
      exact if_pos ⟨rfl, own.symm⟩
    rw [knows] at known
    split_ifs
    · rfl
    · exact marked name ab other found own known
  · rw [ServedOnce, serve, final]
    exact List.nodup_append.mpr ⟨once, List.nodup_singleton _, by
      intro left served right single
      rw [List.mem_singleton] at single
      rintro rfl
      exact first (single ▸ served)⟩

theorem goesThrough_of_kept (marked : state.Marked) (owned : (state.serve call).Owned)
    (once : (state.serve call).ServedOnce) : state.GoesThrough call := by
  rw [goesThrough_iff]
  intro ap cidr pool index taking
  rcases reconcileRequest_taking taking with ⟨next, -, -, uses, -, done, stopped⟩
  have usesAfter := taking.uses_withPool uses ap.name index
  rw [if_pos ⟨rfl, rfl⟩] at usesAfter
  by_cases completes : state.Completes call.2 ap cidr pool index
  · rcases done completes with ⟨block, final⟩
    rw [serve, final] at owned once
    refine ⟨completes, ?_, ?_⟩
    · by_contra failed
      rcases owned ap.name index usesAfter with ⟨name, ab, found, ref, own⟩
      rw [withBlock, Table.lookup_insert] at found
      split_ifs at found with new
      · rw [Option.some.injEq] at found
        subst found
        simp at own
      · exact taking.unowned marked found ref own
    intro served
    have apart := (List.nodup_append.mp once).2.2 _ served call.1.uid (by simp)
    exact apart rfl
  · have final := stopped completes
    rw [serve, final] at owned
    rcases owned ap.name index usesAfter with ⟨name, ab, found, ref, own⟩
    exact absurd own (taking.unowned marked found ref)

/-- From a state in which the objects and the blocks in use fit together, every request gets at
most one block and no block is lost exactly if each call that takes a block is the first to do so
for its request and goes through to the end. -/
theorem servedOnce_iff_goesThrough {state : BlockController} (owned : state.Owned)
    (marked : state.Marked)
    (fresh : state.created = []) (calls : List (BlockRequest × BlockAnswers)) :
    (∀ n, ((calls.take n).foldl serve state).ServedOnce ∧
    ((calls.take n).foldl serve state).Owned) ↔
      AllSteps serve GoesThrough state calls := by
  have once : state.ServedOnce := by
    rw [ServedOnce, fresh]
    exact List.nodup_nil
  apply forall_take_iff_allSteps
    (fun state : BlockController => state.Owned ∧ state.Marked ∧ state.ServedOnce)
    (fun state : BlockController => state.ServedOnce ∧ state.Owned)
  · intro state sound
    exact ⟨sound.2.2, sound.1⟩
  · intro state call sound through
    exact serve_kept sound.1 sound.2.1 sound.2.2 through
  · intro state call sound kept
    exact goesThrough_of_kept sound.2.1 kept.2 kept.1
  · exact ⟨owned, marked, once⟩

def sampleNet : IpNet := .v4 (.ofLength 0x0a000000#32 24)

def samplePodPool : AddressPool := ⟨"pod", some sampleNet, .pod, some 26, none⟩

def sampleController : BlockController where
  pools := AList.singleton "pod" samplePodPool
  blocks := ∅
  allocator := AList.singleton "pod" ⟨sampleNet, 26, .new _, ∅, 0⟩
  created := []

theorem owned_sampleController : sampleController.Owned := by
  intro name index used
  by_cases pod : name = "pod"
  · subst pod
    exact absurd (used.symm.trans (BitSet.has_new index)) (by decide)
  have unknown : sampleController.allocator.lookup name = none := by
    rw [AList.lookup_eq_none]
    simpa [sampleController, AList.mem_keys, AList.singleton] using pod
  rw [uses, unknown] at used
  simp at used

theorem marked_sampleController : sampleController.Marked := by
  intro name ab index found
  exact absurd found (by simp [sampleController])

def sampleBlockRequest (uid : String) : BlockRequest := ⟨uid, "node", "pod", "node"⟩

theorem served_two :
    ([(sampleBlockRequest "a", .succeed), (sampleBlockRequest "b", .succeed)].foldl serve
      sampleController).ServedOnce ∧
    ([(sampleBlockRequest "a", .succeed), (sampleBlockRequest "b", .succeed)].foldl serve
      sampleController).Owned :=
  (servedOnce_iff_goesThrough owned_sampleController marked_sampleController rfl
    [(sampleBlockRequest "a", .succeed), (sampleBlockRequest "b", .succeed)]).mpr (by decide) 2

/-- A request that is reconciled again gets a second block, and a block that was taken for an
object that could not be created is lost. -/
theorem not_served_again : sampleController.Owned ∧
    ¬([(sampleBlockRequest "a", .succeed), (sampleBlockRequest "a", .succeed)].foldl serve
        sampleController).ServedOnce ∧
    ¬([(sampleBlockRequest "a", ⟨true, true, false, true⟩)].foldl serve
      sampleController).Owned := by
  refine ⟨owned_sampleController, by decide, fun owned => ?_⟩
  rcases owned "pod" 0 (by decide) with ⟨name, ab, found, -⟩
  have none : ([(sampleBlockRequest "a", ⟨true, true, false, true⟩)].foldl serve
      sampleController).blocks = ∅ := rfl
  rw [none, AList.lookup_empty] at found
  simp at found

end BlockController

end Sart
