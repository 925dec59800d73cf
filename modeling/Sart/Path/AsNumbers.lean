import Sart.Packet.RoundTrip
import Sart.Peer.Announcement

/-!
# The numbers of an AS path

To a neighbour without four-octet AS numbers a path leaves with the placeholder 23456 for each
large number of its sequence and with one for all large numbers of its set.

`PathBuilder` takes the number for each placeholder from the sequence of the AS4_PATH, also for the
placeholders of the set, and it does not look whether there is one left.
-/

namespace Sart

open Sart.Lib Attribute

namespace PathBuilder

variable {as4 asns : List UInt32} {index : ℕ}

theorem resolveTrans_returns (fits : index + asns.count AS_TRANS ≤ as4.length) :
    ∃ resolved, resolveTrans as4 index asns = .ok (resolved, index + asns.count AS_TRANS) := by
  induction asns generalizing index with
  | nil => exact ⟨[], rfl⟩
  | cons asn rest ih =>
    unfold resolveTrans
    by_cases placeholder : asn = AS_TRANS
    · rw [placeholder, List.count_cons_self] at fits ⊢
      rcases @ih (index + 1) (by omega) with ⟨resolved, returns⟩
      rw [if_pos rfl, List.getElem?_eq_getElem (by omega), returns]
      refine ⟨as4[index] :: resolved, ?_⟩
      simp only [Outcome.ok_bind, Outcome.ok.injEq, Prod.mk.injEq, true_and]
      omega
    rw [List.count_cons_of_ne placeholder] at fits ⊢
    rcases ih fits with ⟨resolved, returns⟩
    rw [if_neg placeholder, returns]
    exact ⟨asn :: resolved, rfl⟩

theorem resolveTrans_panics (within : index ≤ as4.length)
    (lacks : as4.length < index + asns.count AS_TRANS) : resolveTrans as4 index asns = .panic := by
  induction asns generalizing index with
  | nil =>
    rw [List.count_nil] at lacks
    omega
  | cons asn rest ih =>
    unfold resolveTrans
    by_cases placeholder : asn = AS_TRANS
    · rw [placeholder, List.count_cons_self] at lacks
      rw [if_pos placeholder]
      cases found : as4[index]? with
      | none => rfl
      | some asn4 =>
        rcases List.getElem?_eq_some_iff.mp found with ⟨bound, _⟩
        rw [@ih (index + 1) bound (by omega)]
        rfl
    rw [List.count_cons_of_ne placeholder] at lacks
    rw [if_neg placeholder, ih within lacks]
    rfl

theorem build_ne_panic_iff (hash : PathBuilder → UInt64) (clock : ℕ → ℕ) (builder : PathBuilder) :
    builder.build hash clock ≠ .panic ↔ builder.asSequence.count AS_TRANS +
      builder.asSet.count AS_TRANS ≤ builder.as4Sequence.length := by
  rw [build_eq, asLists]
  rcases Nat.lt_or_ge builder.as4Sequence.length (builder.asSequence.count AS_TRANS) with
    lacks | fits
  · rw [resolveTrans_panics (Nat.zero_le _) (by omega)]
    simp only [Outcome.panic_bind, ne_eq, not_true_eq_false, false_iff]
    omega
  rcases @resolveTrans_returns builder.as4Sequence builder.asSequence 0 (by omega) with
    ⟨sequence, returns⟩
  rw [returns, Nat.zero_add, Outcome.ok_bind]
  rcases Nat.lt_or_ge builder.as4Sequence.length (builder.asSequence.count AS_TRANS +
      builder.asSet.count AS_TRANS) with lacks | both
  · rw [resolveTrans_panics fits lacks]
    simp only [Outcome.panic_bind, ne_eq, not_true_eq_false, false_iff]
    omega
  rcases resolveTrans_returns both with ⟨set, setReturns⟩
  rw [setReturns]
  simpa using both

def others (segments : List ASSegment) : List UInt32 :=
  (segments.filter fun segment => segment.segmentType ≠ AS_SEQUENCE).flatMap ASSegment.segments

theorem others_newSegments (asSequence asSet : List UInt32) :
    others (newSegments asSequence asSet) = asSet := by
  have other : AS_SET ≠ AS_SEQUENCE := by decide
  unfold newSegments
  split_ifs with none
  · simp [others, List.isEmpty_iff.mp none]
  · simp [others, other]

def numbers : Attribute → List UInt32 × List UInt32
  | .asPath _ segments => (Attribute.sequence segments, others segments)
  | _ => ([], [])

def numbers4 : Attribute → List UInt32
  | .as4Path _ segments => Attribute.sequence segments
  | _ => []

structure Gathers (builder result : PathBuilder) (attrs : List Attribute) : Prop where
  asSequence : result.asSequence = builder.asSequence ++ attrs.flatMap fun attr => (numbers attr).1
  asSet : result.asSet = builder.asSet ++ attrs.flatMap fun attr => (numbers attr).2
  as4Sequence : result.as4Sequence = builder.as4Sequence ++ attrs.flatMap numbers4

variable {attr : Attribute}

theorem Gathers.cons {builder next result : PathBuilder} {rest : List Attribute}
    (first : Gathers builder next [attr]) (later : Gathers next result rest) :
    Gathers builder result (attr :: rest) := by
  refine ⟨?_, ?_, ?_⟩
  · rw [later.asSequence, first.asSequence]
    simp
  · rw [later.asSet, first.asSet]
    simp
  · rw [later.as4Sequence, first.as4Sequence]
    simp

variable (builder : PathBuilder)

theorem asSegments_gathers (base : Base) (segments : List ASSegment) :
    Gathers builder (builder.asSegments segments false) [.asPath base segments] ∧
      Gathers builder (builder.asSegments segments true) [.as4Path base segments] := by
  induction segments generalizing builder with
  | nil =>
    refine ⟨⟨?_, ?_, ?_⟩, ⟨?_, ?_, ?_⟩⟩
    all_goals simp [asSegments, numbers, numbers4, Attribute.sequence, others]
  | cons segment rest ih =>
    have step : ∀ as4, builder.asSegments (segment :: rest) as4 =
        (builder.asSegment as4 segment).asSegments rest as4 := fun _ => rfl
    rw [step, step]
    rcases ih (builder.asSegment false segment) with ⟨plain, -⟩
    rcases ih (builder.asSegment true segment) with ⟨-, extended⟩
    refine ⟨⟨?_, ?_, ?_⟩, ⟨?_, ?_, ?_⟩⟩
    · rw [plain.asSequence]
      by_cases isSequence : segment.segmentType = AS_SEQUENCE <;>
        simp [asSegment, isSequence, numbers, Attribute.sequence]
    · rw [plain.asSet]
      by_cases isSequence : segment.segmentType = AS_SEQUENCE <;>
        simp [asSegment, isSequence, numbers, others]
    · rw [plain.as4Sequence]
      by_cases isSequence : segment.segmentType = AS_SEQUENCE <;>
        simp [asSegment, isSequence, numbers4]
    · rw [extended.asSequence]
      by_cases isSequence : segment.segmentType = AS_SEQUENCE <;>
        simp [asSegment, isSequence, numbers]
    · rw [extended.asSet]
      by_cases isSequence : segment.segmentType = AS_SEQUENCE <;>
        simp [asSegment, isSequence, numbers]
    · rw [extended.as4Sequence]
      by_cases isSequence : segment.segmentType = AS_SEQUENCE <;>
        simp [asSegment, isSequence, numbers4, Attribute.sequence]

theorem attr_returns (survives : attr.Survives) :
    ∃ result, builder.attr attr = .ok result ∧ Gathers builder result [attr] := by
  -- The list of propagated attributes is not read when the path is built.
  have start : ∀ result, Gathers (if attr.isOptional && attr.isTransitive && attr.isRecognized then
      builder.propagateAttr attr else builder) result [attr] → Gathers builder result [attr] := by
    intro result gathers
    split_ifs at gathers
    · exact ⟨gathers.asSequence, gathers.asSet, gathers.as4Sequence⟩
    · exact gathers
  unfold PathBuilder.attr
  generalize (if attr.isOptional && attr.isTransitive && attr.isRecognized then
    builder.propagateAttr attr else builder) = next at start ⊢
  cases attr with
  | asPath base segments => exact ⟨_, rfl, start _ (asSegments_gathers next base segments).1⟩
  | as4Path base segments => exact ⟨_, rfl, start _ (asSegments_gathers next base segments).2⟩
  | unsupported base data => exact survives.elim
  | _ => exact ⟨_, rfl, start _ ⟨by simp [numbers], by simp [numbers], by simp [numbers4]⟩⟩

theorem attrs_returns {attrs : List Attribute} (survive : ∀ attr ∈ attrs, attr.Survives) :
    ∃ result, builder.attrs attrs = .ok result ∧ Gathers builder result attrs := by
  induction attrs generalizing builder with
  | nil => exact ⟨builder, rfl, by simp, by simp, by simp⟩
  | cons attr rest ih =>
    rcases builder.attr_returns (survive attr (by simp)) with ⟨next, taken, first⟩
    rcases ih next fun other member => survive other (by simp [member]) with
      ⟨result, returns, later⟩
    refine ⟨result, ?_, first.cons later⟩
    rw [PathBuilder.attrs, taken, Outcome.ok_bind, returns]

def buildFrom (hash : PathBuilder → UInt64) (clock : ℕ → ℕ) (builder : PathBuilder)
    (attrs : List Attribute) (nlri : List Prefix) : Outcome Error (List Path) := do
  let builder ← builder.attrs attrs
  (builder.addNlri nlri).build hash clock

end PathBuilder

def Attribute.Decoded (attr : Attribute) : Prop :=
  ∃ (_ : Profile) (as4Enabled : Bool) (octets : List UInt8),
    (Attribute.decode as4Enabled ⟨octets⟩).1 = .ok attr

theorem Attribute.Decoded.survives {attr : Attribute} (decoded : attr.Decoded) : attr.Survives := by
  rcases decoded with ⟨profile, as4Enabled, octets, returned⟩
  exact decode_survives as4Enabled _ _ _ (Prod.ext returned rfl)

def EnoughNumbers (attrs : List Attribute) : Prop :=
  (attrs.flatMap fun attr => (PathBuilder.numbers attr).1).count AS_TRANS +
      (attrs.flatMap fun attr => (PathBuilder.numbers attr).2).count AS_TRANS ≤
    (attrs.flatMap PathBuilder.numbers4).length

instance (attrs : List Attribute) : Decidable (EnoughNumbers attrs) :=
  inferInstanceAs (Decidable (_ ≤ _))

/-- Paths are built from attributes of a neighbour exactly when the AS4_PATH has a number for each
placeholder. -/
theorem PathBuilder.buildFrom_ne_panic_iff {attrs : List Attribute}
    (decoded : ∀ attr ∈ attrs, attr.Decoded) (hash : PathBuilder → UInt64) (clock : ℕ → ℕ)
    (localId : Ipv4Addr) (localAsn : UInt32) (peerId : Ipv4Addr) (peerAddr : IpAddr)
    (peerAsn : UInt32) (nlri : List Prefix) :
    (PathBuilder.builder localId localAsn peerId peerAddr peerAsn).buildFrom hash clock attrs nlri ≠
      .panic ↔ EnoughNumbers attrs := by
  rcases (PathBuilder.builder localId localAsn peerId peerAddr peerAsn).attrs_returns
    fun attr member => (decoded attr member).survives with ⟨result, returns, gathers⟩
  rw [buildFrom, returns, Outcome.ok_bind, build_ne_panic_iff]
  simp [addNlri, gathers.asSequence, gathers.asSet, gathers.as4Sequence, builder, EnoughNumbers]

def sampleTransition : List Attribute :=
  [.asPath ⟨0x40, 2⟩ [⟨2, [65001, 23456]⟩], .as4Path ⟨0xc0, 17⟩ [⟨2, [70000]⟩]]

theorem sampleTransition_decoded : ∀ attr ∈ sampleTransition, attr.Decoded := by
  intro attr member
  simp only [sampleTransition, List.mem_cons, List.not_mem_nil, or_false] at member
  rcases member with rfl | rfl
  · exact ⟨.wrapping, false, [0x40, 2, 6, 2, 2, 0xfd, 0xe9, 0x5b, 0xa0], by decide⟩
  · exact ⟨.wrapping, false, [0xc0, 17, 6, 2, 1, 0, 1, 0x11, 0x70], by decide⟩

theorem PathBuilder.buildFrom_sampleTransition :
    (PathBuilder.builder sampleRouter 65000 0x02020202 (.v4 0x02020202) 65001).buildFrom
    (fun _ => 0)
      (fun _ => 0) sampleTransition [⟨sampleNet, none⟩] ≠ .panic :=
  (PathBuilder.buildFrom_ne_panic_iff sampleTransition_decoded ..).mpr (by decide)

/-- Without its AS4_PATH the same AS path ends the loop of the peer. -/
theorem PathBuilder.buildFrom_sampleTransition_panics :
    (∀ attr ∈ sampleTransition.take 1, attr.Decoded) ∧
      (PathBuilder.builder sampleRouter 65000 0x02020202 (.v4 0x02020202) 65001).buildFrom
        (fun _ => 0) (fun _ => 0) (sampleTransition.take 1) [⟨sampleNet, none⟩] = .panic :=
  ⟨fun attr member => sampleTransition_decoded attr (List.mem_of_mem_take member), by decide⟩

def Attribute.isAsNumbers : Attribute → Bool
  | .asPath _ _ | .as4Path _ _ => true
  | _ => false

def substitute (asn : UInt32) : UInt32 := if asn > AS_2BYTES_LIMIT then AS_TRANS else asn

variable {asn : UInt32}

theorem substitute_of_large (large : asn > AS_2BYTES_LIMIT) :
    substitute asn = AS_TRANS := if_pos large

theorem substitute_of_small (small : ¬asn > AS_2BYTES_LIMIT) :
    substitute asn = asn := if_neg small

theorem count_map_substitute (asns : List UInt32) : (asns.map substitute).count AS_TRANS =
    (asns.filter (· > AS_2BYTES_LIMIT)).length + asns.count AS_TRANS := by
  induction asns with
  | nil => rfl
  | cons asn rest ih =>
    rw [List.map_cons, List.count_cons, ih]
    by_cases large : asn > AS_2BYTES_LIMIT
    · have other : asn ≠ AS_TRANS := by
        rintro rfl
        revert large
        decide
      rw [substitute_of_large large, List.filter_cons_of_pos (by simpa using large),
        List.count_cons_of_ne other, List.length_cons, beq_self_eq_true, if_pos rfl]
      omega
    · rw [substitute_of_small large, List.filter_cons_of_neg (by simpa using large),
        List.count_cons, Nat.add_assoc]

namespace PathBuilder

variable {asns : List UInt32}

theorem resolveTrans_of_not_mem (as4 : List UInt32) (index : ℕ) (plain : AS_TRANS ∉ asns) :
    resolveTrans as4 index asns = .ok (asns, index) := by
  induction asns with
  | nil => rfl
  | cons asn rest ih =>
    rw [List.mem_cons, not_or] at plain
    rw [resolveTrans, if_neg (Ne.symm plain.1), ih plain.2]
    rfl

theorem resolveTrans_substitute (front : List UInt32) (plain : AS_TRANS ∉ asns) :
    resolveTrans (front ++ asns.filter (· > AS_2BYTES_LIMIT)) front.length (asns.map substitute) =
      .ok (asns, front.length + (asns.filter (· > AS_2BYTES_LIMIT)).length) := by
  induction asns generalizing front with
  | nil => rfl
  | cons asn rest ih =>
    rw [List.mem_cons, not_or] at plain
    rw [List.map_cons, resolveTrans]
    by_cases large : asn > AS_2BYTES_LIMIT
    · have later := ih (front ++ [asn]) plain.2
      rw [List.append_assoc, List.length_append, List.length_singleton] at later
      rw [substitute_of_large large, if_pos rfl, List.filter_cons_of_pos (by simpa using large),
        List.getElem?_append_right (Nat.le_refl _), Nat.sub_self]
      rw [← List.singleton_append, later, List.length_append, List.length_singleton,
        Nat.add_assoc]
      rfl
    rw [substitute_of_small large, if_neg (Ne.symm plain.1),
      List.filter_cons_of_neg (by simpa using large), ih front plain.2]
    rfl

end PathBuilder

namespace Path

variable {path : Path}

def sentSet (path : Path) : List UInt32 :=
  let small := path.asSet.filter (· ≤ AS_2BYTES_LIMIT)
  if small.length < path.asSet.length then small ++ [AS_TRANS] else small

theorem numbers_asPathAttributes (path : Path) :
    (path.asPathAttributes.flatMap fun attr => (PathBuilder.numbers attr).1) =
        path.asSequence.map substitute ∧
      (path.asPathAttributes.flatMap fun attr => (PathBuilder.numbers attr).2) = path.sentSet ∧
      path.asPathAttributes.flatMap PathBuilder.numbers4 =
        path.asSequence.filter (· > AS_2BYTES_LIMIT) := by
  have first : path.asPathAttributes =
      newAsPath (path.asSequence.map substitute) path.sentSet true ::
        if (path.asSequence.filter (· > AS_2BYTES_LIMIT)).isEmpty &&
          (path.asSet.filter (· > AS_2BYTES_LIMIT)).isEmpty then [] else
        [newAs4Path (path.asSequence.filter (· > AS_2BYTES_LIMIT))
          (path.asSet.filter (· > AS_2BYTES_LIMIT)) true] := rfl
  rw [first]
  split_ifs with none
  · rw [Bool.and_eq_true, List.isEmpty_iff] at none
    rw [none.1]
    simp [newAsPath, PathBuilder.numbers, PathBuilder.numbers4, sequence_newSegments,
      PathBuilder.others_newSegments]
  · simp [newAsPath, newAs4Path, PathBuilder.numbers, PathBuilder.numbers4, sequence_newSegments,
      PathBuilder.others_newSegments]

def Unambiguous (path : Path) : Prop :=
  AS_TRANS ∉ path.asSequence ∧ ∀ asn ∈ path.asSet, asn ≠ AS_TRANS ∧ asn ≤ AS_2BYTES_LIMIT

theorem sentSet_eq (small : ∀ asn ∈ path.asSet, asn ≤ AS_2BYTES_LIMIT) :
    path.sentSet = path.asSet := by
  have all : path.asSet.filter (· ≤ AS_2BYTES_LIMIT) = path.asSet :=
    List.filter_eq_self.mpr fun asn member => decide_eq_true (small asn member)
  rw [sentSet, all, if_neg (Nat.lt_irrefl _)]

theorem not_mem_sentSet_iff : AS_TRANS ∉ path.sentSet ↔
    ∀ asn ∈ path.asSet, asn ≠ AS_TRANS ∧ asn ≤ AS_2BYTES_LIMIT := by
  constructor
  · intro plain asn member
    unfold sentSet at plain
    dsimp only at plain
    split_ifs at plain with fewer
    · exact absurd (List.mem_append_right _ (List.mem_singleton_self _)) plain
    have small : asn ≤ AS_2BYTES_LIMIT := by
      have all := List.filter_eq_self.mp (List.filter_sublist.eq_of_length_le (Nat.not_lt.mp fewer))
      exact of_decide_eq_true (all asn member)
    refine ⟨?_, small⟩
    rintro rfl
    exact plain (List.mem_filter.mpr ⟨member, decide_eq_true small⟩)
  · intro plain
    rw [sentSet_eq fun asn member => (plain asn member).2]
    exact fun member => (plain AS_TRANS member).1 rfl

def Rebuilds (path : Path) (built : Outcome Error (List Path)) : Prop :=
  ∃ paths, built = .ok paths ∧ ∀ other ∈ paths, other.asSequence = path.asSequence ∧
    ∀ asn, asn ∈ other.asSet ↔ asn ∈ path.asSet

/-- A path comes back from its AS_PATH and AS4_PATH exactly when its numbers are unambiguous. -/
theorem rebuilds_iff {attrs : List Attribute} (made : path.attributes false = .ok attrs)
    (hash : PathBuilder → UInt64) (clock : ℕ → ℕ) (localId : Ipv4Addr) (localAsn : UInt32)
    (peerId : Ipv4Addr) (peerAddr : IpAddr) (peerAsn : UInt32) (nlri : List Prefix) :
    path.Rebuilds ((PathBuilder.builder localId localAsn peerId peerAddr peerAsn).buildFrom hash
      clock (attrs.filter Attribute.isAsNumbers) nlri) ↔ path.Unambiguous := by
  have kept : attrs.filter Attribute.isAsNumbers = path.asPathAttributes := by
    rcases attributes_eq_ok.mp made with ⟨-, nextHop, rest, -, rfl⟩
    have before : path.asPathAttributes.filter Attribute.isAsNumbers = path.asPathAttributes := by
      unfold asPathAttributes
      dsimp only
      split_ifs <;> rfl
    have behind : (path.otherPart nextHop).filter Attribute.isAsNumbers = [] := by
      unfold otherPart
      cases nextHop <;> split_ifs <;> rfl
    rw [List.cons_append, List.filter_cons_of_neg (by simp [Attribute.isAsNumbers]),
      List.filter_append, behind, List.append_nil]
    exact before
  have survive : ∀ attr ∈ path.asPathAttributes, attr.Survives := by
    unfold asPathAttributes
    dsimp only
    split_ifs <;> simp [newAsPath, newAs4Path, Attribute.Survives]
  rcases (PathBuilder.builder localId localAsn peerId peerAddr peerAsn).attrs_returns survive with
    ⟨result, returns, gathers⟩
  rcases path.numbers_asPathAttributes with ⟨sequence, set, sequence4⟩
  rw [kept, PathBuilder.buildFrom, returns, Outcome.ok_bind]
  have asSequence : result.asSequence = path.asSequence.map substitute :=
    gathers.asSequence.trans sequence
  have asSet : result.asSet = path.sentSet := gathers.asSet.trans set
  have as4Sequence : result.as4Sequence = path.asSequence.filter (· > AS_2BYTES_LIMIT) :=
    gathers.as4Sequence.trans sequence4
  constructor
  · rintro ⟨paths, built, -⟩
    have safe := (PathBuilder.build_ne_panic_iff hash clock (result.addNlri nlri)).mp
        (by simp [built])
    simp only [PathBuilder.addNlri, asSequence, asSet, as4Sequence, count_map_substitute] at safe
    refine ⟨List.count_eq_zero.mp (by omega), not_mem_sentSet_iff.mp ?_⟩
    exact List.count_eq_zero.mp (by omega)
  · rintro ⟨plain, plainSet⟩
    have lists : (result.addNlri nlri).asLists = .ok (path.asSequence, path.asSet) := by
      have first := PathBuilder.resolveTrans_substitute [] plain
      rw [List.nil_append, List.length_nil] at first
      simp only [PathBuilder.asLists, PathBuilder.addNlri, asSequence, asSet, as4Sequence, first,
        Outcome.ok_bind, PathBuilder.resolveTrans_of_not_mem _ _ (not_mem_sentSet_iff.mpr plainSet)]
      rw [sentSet_eq fun asn member => (plainSet asn member).2]
    rw [PathBuilder.build_eq, lists, Outcome.ok_bind]
    refine ⟨_, rfl, ?_⟩
    intro other member
    rcases List.mem_mapIdx.mp member with ⟨index, bound, rfl⟩
    exact ⟨rfl, fun _ => Iff.rfl⟩

def sampleLarge : Path := samplePath 7 0x02020202 65001 100 [65001, 70000]

def rebuilt (attrs : List Attribute) : Outcome Error (List Path) :=
  (PathBuilder.builder sampleRouter 65000 0x02020202 (.v4 0x02020202) 65001).buildFrom (fun _ => 0)
    (fun _ => 0) (attrs.filter Attribute.isAsNumbers) [⟨sampleNet, none⟩]

theorem rebuilds_sampleLarge :
    ∃ attrs, sampleLarge.attributes false = .ok attrs ∧ sampleLarge.Rebuilds (rebuilt attrs) := by
  have sequence : sampleLarge.asSequence = [65001, 70000] := rfl
  have set : sampleLarge.asSet = [] := rfl
  have plain : sampleLarge.Unambiguous := by simp [Unambiguous, sequence, set, AS_TRANS]
  exact ⟨_, rfl, (rebuilds_iff rfl ..).mpr plain⟩

def sampleLargeSet : Path := { sampleLarge with asSet := [70001, 70002] }

theorem not_rebuilds_sampleLargeSet : ∃ attrs, sampleLargeSet.attributes false = .ok attrs ∧
    ¬sampleLargeSet.Rebuilds (rebuilt attrs) := by
  refine ⟨_, rfl, ?_⟩
  rintro ⟨paths, built, -⟩
  have panics : (Outcome.panic : Outcome Error (List Path)) = .ok paths := built
  cases panics

end Path

end Sart
