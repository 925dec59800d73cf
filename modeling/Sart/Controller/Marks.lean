import Sart.Controller.Service

/-!
# The marks of a block

What is to be done in a block is decided by three things: whether the block is one to
take addresses from, which of its addresses the Service has, and which it wants.
-/

namespace Sart

open Sart.Lib

def plannedMarks (named : Bool) (current wanted : List IpAddr) : List MarkedAllocation :=
  if named then
    if wanted = [] then
      if current = [] then [.allocate none] else current.map .allocated
    else
      wanted.map (fun addr => if addr ∈ current then .allocated addr else .allocate (some addr)) ++
        (current.filter (· ∉ wanted)).map .release
  else current.map .release

namespace Service

def current (svc : Service) (block : Block) : List IpAddr :=
  svc.addrs.filter fun addr => block.allocator.cidr.contains addr

def wanted (svc : Service) (block : Block) : List IpAddr :=
  (svc.getRequiredLbAddrs.getD []).filter fun addr => block.allocator.cidr.contains addr

def names (svc : Service) (set : AllocatorSet) (name : String) : Bool :=
  name ∈ (desiredPools svc set).getD []

def plan (svc : Service) (set : AllocatorSet) (name : String) : List MarkedAllocation :=
  match set.get name with
  | some block => plannedMarks (svc.names set name) (svc.current block) (svc.wanted block)
  | none => plannedMarks (svc.names set name) [] []

end Service

variable {actual desired : MarkTable} {name : String}

theorem mem_keys_iff {table : MarkTable} : name ∈ table.keys ↔ table.lookup name ≠ none := by
  rw [ne_eq, AList.lookup_eq_none, not_not, AList.mem_keys]

variable {names : List String}

theorem lookup_foldl_appendChanged (source : MarkTable)
    (change : List MarkedAllocation → List MarkedAllocation) (merged : MarkTable)
    (distinct : names.Nodup) : (names.foldl (source.appendChanged change) merged).lookup name =
      if name ∈ names then
        match source.lookup name with
        | some marks => some ((merged.lookup name).getD [] ++ change marks)
        | none => merged.lookup name
      else merged.lookup name := by
  refine Table.lookup_foldl_keys (fun name before =>
    match source.lookup name with
    | some marks => some (before.getD [] ++ change marks)
    | none => before) ?_ distinct merged name
  intro table key other
  unfold MarkTable.appendChanged
  by_cases same : other = key
  · subst same
    cases source.lookup other with
    | none => simp
    | some marks => simp [Table.lookup_append]
  cases source.lookup key with
  | none => simp
  | some marks => simp [Table.lookup_append, same]

theorem lookup_foldl_insertShared (merged : MarkTable) (distinct : names.Nodup) :
    (names.foldl (actual.insertShared desired) merged).lookup name =
      if name ∈ names then
        match desired.lookup name, actual.lookup name with
        | some wanted, some marks => some (MarkedAllocation.mergeShared marks wanted)
        | _, _ => merged.lookup name
      else merged.lookup name := by
  refine Table.lookup_foldl_keys (fun name before =>
    match desired.lookup name, actual.lookup name with
    | some wanted, some marks => some (MarkedAllocation.mergeShared marks wanted)
    | _, _ => before) ?_ distinct merged name
  intro table key other
  unfold MarkTable.insertShared
  by_cases same : other = key
  · subst same
    cases desired.lookup other <;> cases actual.lookup other <;> simp
  · cases desired.lookup key <;> cases actual.lookup key <;> simp [same]

theorem lookup_mergeMarkedAllocation (actual desired : MarkTable) (name : String) :
    (mergeMarkedAllocation actual desired).lookup name =
      match desired.lookup name, actual.lookup name with
      | some wanted, none => some (wanted.map MarkedAllocation.toAllocate)
      | none, some marks => some (marks.filterMap MarkedAllocation.toRelease)
      | some wanted, some marks => some (MarkedAllocation.mergeShared marks wanted)
      | none, none => none := by
  simp only [mergeMarkedAllocation, diff]
  rw [lookup_foldl_insertShared _ (actual.keys_nodup.filter _),
    lookup_foldl_appendChanged _ _ _ (actual.keys_nodup.filter _),
    lookup_foldl_appendChanged _ _ _ (desired.keys_nodup.filter _)]
  simp only [List.mem_filter, decide_eq_true_eq, mem_keys_iff, AList.lookup_empty]
  cases desired.lookup name with
  | none | some wanted =>
    cases actual.lookup name with
    | none => simp
    | some marks => simp

variable {svc : Service} {set : AllocatorSet}

theorem lookup_actualAllocation (svc : Service) (set : AllocatorSet) (name : String) :
    (actualAllocation svc set).lookup name =
      (set.get name).bind fun block =>
        (Table.nonEmpty (svc.current block)).map fun addrs => addrs.map .allocated := by
  rw [actualAllocation, Table.lookup_mapValues, AllocatorSet.lookup_getBlocksFromAddrs]
  cases set.get name <;> rfl

def wantedMarks (wanted : List IpAddr) : List MarkedAllocation :=
  if wanted = [] then [.notMarked none] else wanted.map fun addr => .notMarked (some addr)

theorem lookup_desiredAllocation (built : buildDesiredAllocation svc set = .ok desired)
    (name : String) :
    desired.lookup name =
      if svc.names set name then
        some (wantedMarks (((set.get name).map svc.wanted).getD []))
      else none := by
  unfold buildDesiredAllocation at built
  rcases chosen : desiredPools svc set with _ | pools <;> simp only [chosen, reduceCtorEq] at built
  have named : svc.names set name = decide (name ∈ pools) := by
    simp [Service.names, chosen]
  rw [named]
  rcases required : svc.getRequiredLbAddrs with _ | addrs <;>
    simp only [required, Outcome.ok.injEq] at built
  · subst built
    cases set.get name <;> simp [Service.wanted, required, wantedMarks]
  · subst built
    simp only [Table.lookup_ofKeys, decide_eq_true_eq, AllocatorSet.lookup_getBlocksFromAddrs]
    cases set.get name with
    | none => rfl
    | some block =>
      simp only [Option.bind_some, Option.map_some, Option.getD_some, Service.wanted, required]
      generalize addrs.filter (fun addr => block.allocator.cidr.contains addr) = wanted
      cases wanted with
      | nil => rfl
      | cons first rest => rfl

variable (current wanted : List IpAddr)

theorem filterMap_keepOrAllocate : (wanted.map fun addr => .notMarked (some addr)).filterMap
        (MarkedAllocation.keepOrAllocate (current.map .allocated)) =
      wanted.map fun addr =>
        if addr ∈ current then .allocated addr else .allocate (some addr) := by
  induction wanted with
  | nil => rfl
  | cons addr rest ih =>
    by_cases member : addr ∈ current
    all_goals simpa [MarkedAllocation.keepOrAllocate, member] using ih

theorem filterMap_releaseUnwanted : (current.map .allocated).filterMap
        (MarkedAllocation.releaseUnwanted (wanted.map fun addr => .notMarked (some addr))) =
      (current.filter (· ∉ wanted)).map .release := by
  induction current with
  | nil => rfl
  | cons addr rest ih =>
    by_cases member : addr ∈ wanted
    all_goals simp [MarkedAllocation.releaseUnwanted, member, ih]

theorem mergeShared_eq (several : wanted = [] → current ≠ []) :
    MarkedAllocation.mergeShared (current.map .allocated) (wantedMarks wanted) =
      plannedMarks true current wanted := by
  unfold MarkedAllocation.mergeShared plannedMarks wantedMarks
  by_cases empty : wanted = []
  · simp [empty, several]
  have specific : wanted.map (fun addr => MarkedAllocation.notMarked (some addr)) ≠
      [.notMarked none] := by
    cases wanted with
    | nil => exact absurd rfl empty
    | cons first rest => simp
  simp only [if_neg empty, if_neg specific, if_true]
  rw [filterMap_keepOrAllocate, filterMap_releaseUnwanted]

theorem map_toAllocate :
    (wantedMarks wanted).map MarkedAllocation.toAllocate = plannedMarks true [] wanted := by
  by_cases empty : wanted = []
  · simp [wantedMarks, plannedMarks, empty, MarkedAllocation.toAllocate]
  · simp [wantedMarks, plannedMarks, empty, MarkedAllocation.toAllocate, Function.comp_def]

theorem filterMap_toRelease :
    (current.map .allocated).filterMap MarkedAllocation.toRelease = current.map .release := by
  rw [List.filterMap_map, ← List.filterMap_eq_map]
  rfl

theorem getD_merge_of (current : List IpAddr)
    (built : buildDesiredAllocation svc set = .ok desired)
    (stored : actual.lookup name =
      (Table.nonEmpty current).map fun addrs => addrs.map .allocated) :
    ((mergeMarkedAllocation actual desired).lookup name).getD [] =
      plannedMarks (svc.names set name) current (((set.get name).map svc.wanted).getD []) := by
  rw [lookup_mergeMarkedAllocation, stored, lookup_desiredAllocation built]
  generalize ((set.get name).map svc.wanted).getD [] = wanted
  cases svc.names set name with
  | false =>
    cases current with
    | nil => rfl
    | cons first rest => exact filterMap_toRelease _
  | true =>
    cases current with
    | nil => exact map_toAllocate _
    | cons first rest => exact mergeShared_eq _ _ fun _ => by simp

theorem getD_merged (built : buildDesiredAllocation svc set = .ok desired) (name : String) :
    ((mergeMarkedAllocation (actualAllocation svc set) desired).lookup name).getD [] =
      svc.plan set name := by
  have stored := lookup_actualAllocation svc set name
  rw [Service.plan]
  rcases found : set.get name with _ | block <;> rw [found] at stored
  · simpa [found] using getD_merge_of [] built stored
  · simpa [found] using getD_merge_of (svc.current block) built stored

structure MergesExactly (actual : List MarkedAllocation) (desired : Option (List MarkedAllocation))
    (merged : List MarkedAllocation) : Prop where
  marked : ∀ addr, .notMarked addr ∉ merged
  once : ∀ addr, .allocated addr ∈ actual →
    merged.count (.allocated addr) + merged.count (.release addr) = 1
  release_iff : ∀ addr, .allocated addr ∈ actual → (.release addr ∈ merged ↔ desired = none ∨
    (∃ other, .notMarked (some other) ∈ desired.getD []) ∧
      .notMarked (some addr) ∉ desired.getD [])
  specific : ∀ addr, .notMarked (some addr) ∈ desired.getD [] →
    if .allocated addr ∈ actual then .allocated addr ∈ merged else .allocate (some addr) ∈ merged
  apart : ∀ addr, .release addr ∈ merged → .allocated addr ∉ merged

variable {current wanted}

theorem nodup_plannedMarks (named : Bool) (distinct : current.Nodup) (once : wanted.Nodup) :
    (plannedMarks named current wanted).Nodup := by
  have kept : (current.map MarkedAllocation.allocated).Nodup :=
    distinct.map fun _ _ => MarkedAllocation.allocated.inj
  have released {addrs : List IpAddr} (nodup : addrs.Nodup) :
      (addrs.map MarkedAllocation.release).Nodup :=
    nodup.map fun _ _ => MarkedAllocation.release.inj
  unfold plannedMarks
  split_ifs
  · simp
  · exact kept
  · refine List.Nodup.append (once.map_on fun addr _ other _ same => ?_)
      (released (distinct.filter _)) ?_
    · grind
    · grind [List.Disjoint]
  · exact released distinct

theorem mergesExactly_plannedMarks (named : Bool) (distinct : current.Nodup) (once : wanted.Nodup) :
    MergesExactly (current.map .allocated) (if named then some (wantedMarks wanted) else none)
      (plannedMarks named current wanted) := by
  have single := nodup_plannedMarks named distinct once
  constructor
  case once =>
    intro addr
    simp only [single.count]
    grind [plannedMarks]
  case release_iff =>
    intro addr member
    have released : .release addr ∈ plannedMarks named current wanted ↔
        named = true → wanted ≠ [] ∧ addr ∉ wanted := by grind [plannedMarks]
    have listed (other : IpAddr) : .notMarked (some other) ∈ wantedMarks wanted ↔
        other ∈ wanted := by grind [wantedMarks]
    cases named with
    | false => simp [released]
    | true =>
      have nonempty : (∃ other, other ∈ wanted) ↔ wanted ≠ [] :=
        ⟨fun ⟨_, member⟩ => List.ne_nil_of_mem member, List.exists_mem_of_ne_nil wanted⟩
      simp [released, listed, nonempty]
  all_goals grind [plannedMarks, wantedMarks]

/-- The merge decides each actual and each wanted address of a block once. -/
theorem mergeMarkedAllocation_exact (allocated : ∀ name marks, actual.lookup name = some marks →
      ∃ current : List IpAddr, current.Nodup ∧ marks = current.map .allocated)
    (built : buildDesiredAllocation svc set = .ok desired)
    (distinct : (svc.getRequiredLbAddrs.getD []).Nodup) (name : String) :
    MergesExactly ((actual.lookup name).getD []) (desired.lookup name)
      (((mergeMarkedAllocation actual desired).lookup name).getD []) := by
  have once : (((set.get name).map svc.wanted).getD []).Nodup := by
    cases set.get name with
    | none => exact List.nodup_nil
    | some block => exact distinct.filter _
  have planned (current : List IpAddr) (nodup : current.Nodup) :=
    mergesExactly_plannedMarks (svc.names set name) nodup once
  rw [lookup_desiredAllocation built]
  rcases found : actual.lookup name with _ | marks
  · rw [getD_merge_of [] built found]
    exact planned [] List.nodup_nil
  rcases allocated name marks found with ⟨current, nodup, rfl⟩
  cases current with
  | cons first rest =>
    rw [getD_merge_of (first :: rest) built found]
    exact planned _ nodup
  | nil =>
    -- a block that is listed without an address has none to keep or to release
    rw [lookup_mergeMarkedAllocation, found, lookup_desiredAllocation built]
    generalize ((set.get name).map svc.wanted).getD [] = wanted at once ⊢
    cases svc.names set name with
    | false => constructor <;> simp
    | true =>
      by_cases empty : wanted = []
      · constructor <;> simp [empty, wantedMarks, MarkedAllocation.mergeShared]
      change MergesExactly [] (some _) (MarkedAllocation.mergeShared ([].map .allocated) _)
      rw [mergeShared_eq [] wanted fun none => absurd none empty]
      exact mergesExactly_plannedMarks true nodup once

def sampleTaken : AllocatorSet :=
  let cidr : IpNet := .v4 (.ofLength 0x0A000000#32 30)
  let alloc : Allocator := ⟨cidr, .new _, 0⟩
  ⟨AList.singleton "lan" ⟨"lan", "lan", alloc.mark (.v4 0x0A000001#32) true 1⟩, none⟩

def sampleRequest (addrs : List IpAddr) : Service where
  name := "web"
  isLoadbalancer := true
  externalTrafficPolicy := some "Cluster"
  poolAnnotation := some ["lan"]
  addressAnnotation := some (addrs.map some)
  releaseAnnotation := none
  ingress := none

def sampleMarks : MarkTable :=
  AList.singleton "lan" [.allocated (.v4 0x0A000001#32), .allocated (.v4 0x0A000002#32)]

theorem mergeMarkedAllocation_exact_sample : ∃ desired,
    buildDesiredAllocation (sampleRequest [.v4 0x0A000001#32]) sampleTaken = .ok desired ∧
      ∀ name, MergesExactly ((sampleMarks.lookup name).getD []) (desired.lookup name)
        (((mergeMarkedAllocation sampleMarks desired).lookup name).getD []) := by
  have built : buildDesiredAllocation (sampleRequest [.v4 0x0A000001#32]) sampleTaken =
    .ok _ := rfl
  refine ⟨_, built, mergeMarkedAllocation_exact ?_ built (by decide)⟩
  intro name marks found
  refine ⟨[.v4 0x0A000001#32, .v4 0x0A000002#32], by decide, ?_⟩
  by_cases same : name = "lan"
  · subst same
    exact (Option.some.inj found).symm
  · simp [sampleMarks, AList.singleton, AList.lookup, same] at found

end Sart
