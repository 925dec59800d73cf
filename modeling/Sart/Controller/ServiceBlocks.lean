import Sart.Controller.Service

/-!
# Service blocks in the controller

The controller keeps an allocator for each service block it has seen, and remembers
which of the blocks is used when a Service names none.
-/

namespace Sart

open Sart.Lib Sart.Lib.Effect

def switchAutoAssign (ab : AddressBlock) (set : AllocatorSet) :
    Effect AllocatorSet ControllerError PUnit :=
  if ab.autoAssign then
    match set.autoAssign with
    | some name => if ab.name ≠ name then fail .autoAssignMustBeOne else pure ⟨⟩
    | none => Effect.modify fun set => { set with autoAssign := some ab.name }
  else if set.autoAssign = some ab.name then
    Effect.modify fun set => { set with autoAssign := none }
  else pure ⟨⟩

def registerBlock (ab : AddressBlock) (cidr : IpNet) (set : AllocatorSet) :
    Effect AllocatorSet ControllerError PUnit := do
  let block ← lift (liftIpam (Block.new ab.name ab.name cidr))
  Effect.modify fun set => { set with blocks := set.blocks.insert ab.name block }
  if ab.autoAssign then
    match set.autoAssign with
    | some _ => fail .failedToEnableAutoAssign
    | none => Effect.modify fun set => { set with autoAssign := some ab.name }
  else pure ⟨⟩

def reconcileService (ab : AddressBlock) : Effect AllocatorSet ControllerError PUnit := do
  let set ← Effect.read id
  match ab.cidr with
  | none => fail .invalidCIDR
  | some cidr =>
    match set.get ab.name with
    | some _ => switchAutoAssign ab set
    | none => registerBlock ab cidr set

def cleanupService (wraps : Bool) (ab : AddressBlock) :
    Effect AllocatorSet ControllerError PUnit := do
  let set ← Effect.read id
  if set.autoAssign = some ab.name then fail .cannotDelete
  else
    match set.get ab.name with
    | none => pure ⟨⟩
    | some block => do
        let empty ← lift (liftIpam (block.allocator.isEmpty wraps))
        if empty then Effect.modify fun set => set.remove ab.name
        else fail .notEmpty

inductive RegistryCall where
  | reconcile (ab : AddressBlock)
  | cleanup (wraps : Bool) (ab : AddressBlock)

namespace RegistryCall

def run : RegistryCall → Effect AllocatorSet ControllerError PUnit
  | .reconcile ab => reconcileService ab
  | .cleanup wraps ab => cleanupService wraps ab

/-- A call, with the flags that blocks had when they were last reconciled with success. -/
def track (state : AllocatorSet × (String → Bool)) (call : RegistryCall) :
    AllocatorSet × (String → Bool) :=
  ((call.run state.1).2,
    match call, (call.run state.1).1 with
    | .reconcile ab, .ok _ => Function.update state.2 ab.name ab.autoAssign
    | _, _ => state.2)

def AutoValid (state : AllocatorSet × (String → Bool)) : Prop :=
  ∀ name, state.1.autoAssign = some name → (state.1.get name).isSome = true ∧ state.2 name = true

def Atomic (set : AllocatorSet) (call : RegistryCall) : Prop :=
  ∀ cause, (call.run set).1 = .error cause → (call.run set).2 = set

def Contends (set : AllocatorSet) : RegistryCall → Prop
  | .reconcile ab => set.get ab.name = none ∧ ab.autoAssign = true ∧ set.autoAssign ≠ none ∧
    ∃ cidr, ab.cidr = some cidr ∧ (cidr.afi = .ipv6 → 128 - cidr.prefixLen ≤ Allocator.MAX_SIZE)
  | .cleanup _ _ => False

variable {set : AllocatorSet} {flags : String → Bool}

theorem reconcileService_cases (ab : AddressBlock)
    (registered : ∀ name, set.autoAssign = some name → (set.get name).isSome = true) :
    ¬Contends set (.reconcile ab) ∧ (∃ cause, reconcileService ab set = (.error cause, set)) ∨
    Contends set (.reconcile ab) ∧ (∃ cause block, reconcileService ab set =
      (.error cause, { set with blocks := set.blocks.insert ab.name block })) ∨
    ¬Contends set (.reconcile ab) ∧ ∃ next, reconcileService ab set = (.ok ⟨⟩, next) ∧
      (∀ name, (set.get name).isSome = true → (next.get name).isSome = true) ∧
      ∀ name, next.autoAssign = some name →
        name ≠ ab.name ∧ set.autoAssign = some name ∨
        name = ab.name ∧ ab.autoAssign = true ∧ (next.get name).isSome = true := by
  cases text : ab.cidr with
  | none =>
    refine .inl ⟨by simp [Contends, text], .invalidCIDR, ?_⟩
    simp [reconcileService, bind_apply, Effect.read, text, fail]
  | some cidr =>
    cases found : set.get ab.name with
    | some block =>
      have calm : ¬Contends set (.reconcile ab) := by simp [Contends, found]
      have ran : reconcileService ab set = switchAutoAssign ab set set := by
        simp [reconcileService, bind_apply, Effect.read, text, found]
      rw [ran, switchAutoAssign]
      split_ifs with flag auto
      · cases auto : set.autoAssign with
        | none =>
          refine .inr (.inr ⟨calm, _, rfl, fun _ stored => stored, ?_⟩)
          rintro name ⟨rfl⟩
          exact .inr ⟨rfl, flag, Option.isSome_of_eq_some found⟩
        | some name =>
          dsimp only
          split_ifs with other
          · exact .inl ⟨calm, _, rfl⟩
          refine .inr (.inr ⟨calm, _, rfl, fun _ stored => stored, ?_⟩)
          rintro name' same
          rw [auto, Option.some.injEq] at same
          subst same
          exact .inr ⟨(not_not.mp other).symm, flag,
            (not_not.mp other) ▸ Option.isSome_of_eq_some found⟩
      · exact .inr (.inr ⟨calm, _, rfl, fun _ stored => stored, nofun⟩)
      · refine .inr (.inr ⟨calm, _, rfl, fun _ stored => stored, fun name same => ?_⟩)
        exact .inl ⟨fun here => auto (here ▸ same), same⟩
    | none =>
      have ran : reconcileService ab set = registerBlock ab cidr set set := by
        simp [reconcileService, bind_apply, Effect.read, text, found]
      by_cases large : cidr.afi = .ipv6 ∧ 128 - cidr.prefixLen > Allocator.MAX_SIZE
      · have refused : Block.new ab.name ab.name cidr = .error (.cidrTooLarge cidr.prefixLen) := by
          rw [Block.new, Allocator.new, if_pos large, Outcome.error_bind]
        refine .inl ⟨?_, _, by rw [ran, registerBlock, refused]; rfl⟩
        rintro ⟨-, -, -, other, same, small⟩
        rw [text, Option.some.injEq] at same
        subst same
        exact (small large.1).not_gt large.2
      have made : ∃ block, Block.new ab.name ab.name cidr = .ok block :=
        ⟨_, by rw [Block.new, Allocator.new, if_neg large, Outcome.ok_bind]⟩
      rcases made with ⟨block, made⟩
      have kept : ∀ name, (set.get name).isSome = true →
          ((set.blocks.insert ab.name block).lookup name).isSome = true := by
        intro name stored
        rw [Table.lookup_insert]
        split_ifs
        · rfl
        · exact stored
      rw [ran, registerBlock, made]
      cases flag : ab.autoAssign with
      | false =>
        refine .inr (.inr ⟨by simp [Contends, flag], _, rfl, kept, fun name same => ?_⟩)
        refine .inl ⟨?_, same⟩
        rintro rfl
        simpa [found] using registered _ same
      | true =>
        by_cases auto : set.autoAssign = none
        · refine .inr (.inr ⟨by simp [Contends, auto],
            ⟨set.blocks.insert ab.name block, some ab.name⟩,
            ?_, kept, ?_⟩)
          · simp only [auto]
            rfl
          · rintro name ⟨rfl⟩
            exact .inr ⟨rfl, rfl, by simp [AllocatorSet.get]⟩
        refine .inr (.inl ⟨⟨found, flag, auto, cidr, text, fun v6 => ?_⟩,
          .failedToEnableAutoAssign, block, ?_⟩)
        · exact not_lt.mp fun more => large ⟨v6, more⟩
        · rcases Option.ne_none_iff_exists'.mp auto with ⟨name, auto⟩
          simp [bind_apply, lift, liftIpam, Effect.modify, auto, fail]

theorem cleanupService_cases (wraps : Bool) (ab : AddressBlock) (set : AllocatorSet) :
    (∃ outcome, cleanupService wraps ab set = (outcome, set)) ∨
      set.autoAssign ≠ some ab.name ∧
        (∃ block, set.get ab.name = some block ∧ block.allocator.isEmpty wraps = .ok true) ∧
        cleanupService wraps ab set = (.ok ⟨⟩, set.remove ab.name) := by
  simp only [cleanupService, bind_apply, Effect.read, id_eq]
  split_ifs with auto
  · exact .inl ⟨_, rfl⟩
  cases found : set.get ab.name with
  | none => exact .inl ⟨_, rfl⟩
  | some block =>
    dsimp only
    rcases counted : block.allocator.isEmpty wraps with empty | cause | _
    · cases empty with
      | true => exact .inr ⟨auto, ⟨block, rfl, counted⟩, rfl⟩
      | false => exact .inl ⟨_, rfl⟩
    all_goals exact .inl ⟨_, rfl⟩

theorem AutoValid.track {state : AllocatorSet × (String → Bool)} (valid : AutoValid state)
    (call : RegistryCall) :
    AutoValid (track state call) ∧ (Atomic state.1 call ↔ ¬Contends state.1 call) := by
  cases call with
  | reconcile ab =>
    simp only [RegistryCall.track, Atomic, run]
    rcases reconcileService_cases ab fun name auto => (valid name auto).1 with
      ⟨calm, cause, ran⟩ | ⟨contends, cause, block, ran⟩ | ⟨calm, next, ran, kept, auto⟩ <;>
        rw [ran]
    · exact ⟨valid, iff_of_true (fun _ _ => rfl) calm⟩
    · refine ⟨fun name same => ?_, iff_of_false (fun atomic => ?_) (not_not.mpr contends)⟩
      · rcases valid name same with ⟨stored, flag⟩
        refine ⟨?_, flag⟩
        show ((state.1.blocks.insert ab.name block).lookup name).isSome = true
        rw [Table.lookup_insert]
        split_ifs
        · rfl
        · exact stored
      · have same := congrArg (fun set => set.get ab.name) (atomic cause rfl)
        simp [AllocatorSet.get, show state.1.blocks.lookup ab.name = none from contends.1] at same
    · refine ⟨fun name same => ?_, iff_of_true (by simp) calm⟩
      rcases auto name same with ⟨other, before⟩ | ⟨rfl, flag, stored⟩
      · exact ⟨kept name (valid name before).1, by simp [other, (valid name before).2]⟩
      · exact ⟨stored, by simp [flag]⟩
  | cleanup wraps ab =>
    simp only [RegistryCall.track, Atomic, run]
    rcases cleanupService_cases wraps ab state.1 with ⟨outcome, ran⟩ | ⟨other, -, ran⟩ <;> rw [ran]
    · exact ⟨valid, iff_of_true (fun _ _ => rfl) id⟩
    · refine ⟨fun name same => ?_, iff_of_true (by simp) id⟩
      have before : state.1.autoAssign = some name := (if_neg other).symm.trans same
      refine ⟨?_, (valid name before).2⟩
      show ((state.1.blocks.erase ab.name).lookup name).isSome = true
      rw [Table.lookup_erase, if_neg (by rintro rfl; exact other before)]
      exact (valid name before).1

/-- In every state that calls can reach, the automatic block is valid; and a call that fails leaves
the set as it was exactly if it is not for a new block that would replace the automatic one. -/
theorem registry_valid (calls : List RegistryCall) :
    AutoValid (calls.foldl track (.empty, fun _ => false)) ∧
      ∀ call, Atomic (calls.foldl track (.empty, fun _ => false)).1 call ↔
        ¬Contends (calls.foldl track (.empty, fun _ => false)).1 call := by
  have valid : AutoValid (calls.foldl track (.empty, fun _ => false)) := by
    induction calls using List.reverseRecOn with
    | nil => exact nofun
    | append_singleton calls call ih =>
      rw [List.foldl_append]
      exact (ih.track call).1
  exact ⟨valid, fun call => (valid.track call).2⟩

def sampleAutoBlock (name : String) : AddressBlock :=
  ⟨name, some (.v4 (.ofLength 0x0A000000#32 24)), .service, name, none, true, none⟩

/-- A second block that wants to be the automatic one is refused, and registered. -/
theorem not_atomic_of_second :
    ¬Atomic ([.reconcile (sampleAutoBlock "a")].foldl track (.empty, fun _ => false)).1
      (.reconcile (sampleAutoBlock "b")) := by
  intro atomic
  have same := congrArg (fun set => (set.get "b").isSome) (atomic .failedToEnableAutoAssign rfl)
  revert same
  decide

end RegistryCall

end Sart
