import Sart.Packet.Framing

/-!
# Mandatory attributes

The decoder asks for the mandatory attributes as soon as the attribute section is not empty, before
it knows what the message announces.  So an UPDATE with routes and an empty section is accepted, and
one that only withdraws routes in MP_UNREACH_NLRI is refused.
-/

namespace Sart

open Sart.Lib Sart.Lib.Reader Sart.Lib.Effect

namespace Message

/-- What an UPDATE holds: the length field of its attributes, their type codes, and whether routes
follow them. -/
structure Contents where
  length : ℕ
  codes : List UInt8
  nlri : Bool
  deriving DecidableEq

section Contents

variable [Profile]

/-- The attributes without the check behind them. -/
def decodeSection (as4Enabled : Bool) : Decoder (ℕ × List Attribute) := do
  let length ← getU16
  if length.toNat > 0 then
    let attributes ← decodeAttributeEntries as4Enabled length.toNat
    pure (length.toNat, attributes)
  else pure (0, [])

def decodeContents (family : AddressFamily) (as4Enabled : Bool) (messageTail : ℕ) :
    Decoder Contents := do
  let _ ← decodeWithdrawnRoutes family
  let part ← decodeSection as4Enabled
  let nlri ← whileLeft (fun left => decide (messageTail < left)) (Prefix.decode family false)
  pure ⟨part.1, part.2.map Attribute.code, !nlri.isEmpty⟩

/-- The octets are a syntactically well-formed UPDATE that holds the contents. -/
def Carries (family : AddressFamily) (as4Enabled : Bool) (data : List UInt8)
    (contents : Contents) : Prop :=
  frameType data = some .update ∧
    (decodeContents family as4Enabled (messageTail data) ⟨data.drop 19⟩).1 = .ok contents

end Contents

/-- The attribute that the check behind the attributes does not find. -/
def Contents.lacks (contents : Contents) : Option UInt8 :=
  if 0 < contents.length then missingWellKnown contents.codes else none

theorem Contents.lacks_eq_none_iff (contents : Contents) : contents.lacks = none ↔
    (0 < contents.length → Attribute.ORIGIN ∈ contents.codes ∧ Attribute.AS_PATH ∈ contents.codes ∧
      (Attribute.NEXT_HOP ∈ contents.codes ∨ Attribute.MP_REACH_NLRI ∈ contents.codes)) := by
  unfold lacks missingWellKnown
  split_ifs <;> simp_all
  tauto

def Has (contents : Contents) (message : Message) : Prop :=
  ∃ withdrawnRoutes attributes nlri, message = .update withdrawnRoutes attributes nlri ∧
    (attributes.map Attribute.code = contents.codes ∧ (contents.length = 0 → contents.codes = [])) ∧
      (nlri = [] ↔ contents.nlri = false)

section Checked

variable [Profile] {family : AddressFamily} {as4Enabled : Bool} {data : List UInt8}
  {contents : Contents} {withdrawnRoutes nlri : List Prefix} {attributes : List Attribute}
  {cursor final : Cursor} {tail : ℕ}

theorem decodeSection_empty {part : ℕ × List Attribute}
    (run : decodeSection as4Enabled cursor = (.ok part, final)) (empty : part.1 = 0) :
    part.2 = [] := by
  obtain ⟨length, middle, -, run⟩ := bind_eq_ok.mp run
  split_ifs at run with filled
  · obtain ⟨attributes, after, -, run⟩ := bind_eq_ok.mp run
    obtain ⟨rfl, rfl⟩ := run
    exact absurd empty (Nat.ne_of_gt filled)
  · obtain ⟨rfl, rfl⟩ := run
    rfl

/-- The check looks at the attributes alone. -/
theorem decodeAttributes_eq (as4Enabled : Bool) (nlri : Bool) :
    decodeAttributes as4Enabled = (do
      let part ← decodeSection as4Enabled
      match Contents.lacks ⟨part.1, part.2.map Attribute.code, nlri⟩ with
      | some code => fail (.updateMessage (.missingWellKnownAttribute code))
      | none => pure part.2) := by
  funext cursor
  simp only [decodeAttributes, decodeSection, bind_apply]
  rcases (getU16 cursor : Outcome Error UInt16 × Cursor) with ⟨length | _ | _, middle⟩ <;>
    dsimp only
  split_ifs with filled
  · simp only [bind_apply]
    rcases decodeAttributeEntries _ _ middle with ⟨attributes | _ | _, after⟩
    · cases missing : missingWellKnown (attributes.map Attribute.code) <;>
        simp only [Contents.lacks, filled, if_true, pure_apply, missing]
    all_goals rfl
  · rfl

theorem decodeContents_eq_ok :
    decodeContents family as4Enabled tail cursor = (.ok contents, final) ↔
      ∃ withdrawnRoutes middle part behind nlri,
        decodeWithdrawnRoutes family cursor = (.ok withdrawnRoutes, middle) ∧
        decodeSection as4Enabled middle = (.ok part, behind) ∧
        whileLeft (fun left => decide (tail < left)) (Prefix.decode family false) behind =
          (.ok nlri, final) ∧
        contents = ⟨part.1, part.2.map Attribute.code, !nlri.isEmpty⟩ := by
  constructor
  · intro run
    obtain ⟨withdrawnRoutes, middle, first, run⟩ := bind_eq_ok.mp run
    obtain ⟨part, behind, second, run⟩ := bind_eq_ok.mp run
    obtain ⟨nlri, after, third, run⟩ := bind_eq_ok.mp run
    obtain ⟨rfl, rfl⟩ := run
    exact ⟨withdrawnRoutes, middle, part, behind, nlri, first, second, third, rfl⟩
  · rintro ⟨withdrawnRoutes, middle, part, behind, nlri, first, second, third, rfl⟩
    exact bind_eq_ok.mpr ⟨_, _, first, bind_eq_ok.mpr ⟨_, _, second,
      bind_eq_ok.mpr ⟨_, _, third, rfl⟩⟩⟩

theorem has_update {part : ℕ × List Attribute} {middle behind : Cursor}
    (run : decodeSection as4Enabled middle = (.ok part, behind)) :
    Has ⟨part.1, part.2.map Attribute.code, !nlri.isEmpty⟩
      (.update withdrawnRoutes part.2 nlri) :=
  ⟨_, _, _, rfl, ⟨rfl, fun empty => by simp [decodeSection_empty run empty]⟩, by simp⟩

theorem decodeUpdate_of_contents
    (run : decodeContents family as4Enabled tail cursor = (.ok contents, final)) :
    contents.lacks = none ∧ (∃ message, decodeUpdate family as4Enabled tail cursor =
      (.ok message, final) ∧ Has contents message) ∨
    ∃ code middle, contents.lacks = some code ∧ decodeUpdate family as4Enabled tail cursor =
      (.error (.updateMessage (.missingWellKnownAttribute code)), middle) := by
  obtain ⟨withdrawnRoutes, middle, part, behind, nlri, first, second, third, rfl⟩ :=
    decodeContents_eq_ok.mp run
  rw [decodeUpdate, bind_apply, first, decodeAttributes_eq as4Enabled (!nlri.isEmpty)]
  dsimp only
  rw [bind_apply, bind_apply, second]
  dsimp only
  cases missing : Contents.lacks ⟨part.1, part.2.map Attribute.code, !nlri.isEmpty⟩ with
  | none =>
    refine .inl ⟨rfl, .update withdrawnRoutes part.2 nlri, ?_, has_update second⟩
    simp only [pure_apply]
    rw [bind_apply, third]
    rfl
  | some code => exact .inr ⟨code, behind, rfl, rfl⟩

theorem contents_of_decodeUpdate (run : decodeUpdate family as4Enabled tail cursor =
      (.ok (.update withdrawnRoutes attributes nlri), final)) :
    ∃ contents, decodeContents family as4Enabled tail cursor = (.ok contents, final) ∧
      contents.lacks = none ∧ Has contents (.update withdrawnRoutes attributes nlri) := by
  obtain ⟨routes, middle, first, run⟩ := bind_eq_ok.mp run
  rw [decodeAttributes_eq as4Enabled (!nlri.isEmpty)] at run
  obtain ⟨known, behind, checked, run⟩ := bind_eq_ok.mp run
  obtain ⟨announced, after, third, run⟩ := bind_eq_ok.mp run
  obtain ⟨part, between, second, checked⟩ := bind_eq_ok.mp checked
  cases run
  cases missing : Contents.lacks ⟨part.1, part.2.map Attribute.code, !nlri.isEmpty⟩ with
  | some code =>
    rw [missing] at checked
    cases checked
  | none =>
    rw [missing] at checked
    cases checked
    exact ⟨_, decodeContents_eq_ok.mpr ⟨_, _, _, _, _, first, second, third, rfl⟩, missing,
      has_update second⟩

/-- Routes are announced with their mandatory attributes, and an UPDATE that announces nothing is
not refused for one. -/
structure MandatoryExactly (family : AddressFamily) (as4Enabled : Bool) (data : List UInt8) :
    Prop where
  nlri : ∀ withdrawnRoutes attributes nlri, (decodeMsg family as4Enabled ⟨data⟩).1 =
    .ok (.update withdrawnRoutes attributes nlri) → nlri ≠ [] →
      [Attribute.ORIGIN, Attribute.AS_PATH, Attribute.NEXT_HOP] ⊆ attributes.map Attribute.code
  mpReach : ∀ withdrawnRoutes attributes nlri, (decodeMsg family as4Enabled ⟨data⟩).1 =
    .ok (.update withdrawnRoutes attributes nlri) → ∀ base other nextHops routes,
      .mpReachNLRI base other nextHops routes ∈ attributes → routes ≠ [] →
        [Attribute.ORIGIN, Attribute.AS_PATH] ⊆ attributes.map Attribute.code
  nothing : ∀ contents, Carries family as4Enabled data contents → contents.nlri = false →
    Attribute.MP_REACH_NLRI ∉ contents.codes → ∀ code,
      (decodeMsg family as4Enabled ⟨data⟩).1 ≠
        .error (.updateMessage (.missingWellKnownAttribute code))

/-- With routes the attribute section is not empty, and MP_REACH_NLRI does not stand in for the
next hop.  Without any the section is empty or has all that an announcement must have. -/
structure Contents.Whole (contents : Contents) : Prop where
  announces : contents.nlri = true → 0 < contents.length ∧
    ([Attribute.ORIGIN, Attribute.AS_PATH, Attribute.MP_REACH_NLRI] ⊆ contents.codes →
      Attribute.NEXT_HOP ∈ contents.codes)
  withdraws : contents.nlri = false → Attribute.MP_REACH_NLRI ∉ contents.codes →
    0 < contents.length →
      [Attribute.ORIGIN, Attribute.AS_PATH, Attribute.NEXT_HOP] ⊆ contents.codes

theorem Carries.checked (carries : Carries family as4Enabled data contents) :
    contents.lacks = none ∧ (∃ message, (decodeMsg family as4Enabled ⟨data⟩).1 = .ok message ∧
      Has contents message) ∨
    ∃ code, contents.lacks = some code ∧ (decodeMsg family as4Enabled ⟨data⟩).1 =
      .error (.updateMessage (.missingWellKnownAttribute code)) := by
  rcases carries with ⟨header, ran⟩
  rcases decodeMsg_cases family as4Enabled data with ⟨messageType, framed, same⟩ | ⟨framed, _⟩
  · obtain rfl : MessageType.update = messageType := Option.some.inj (header.symm.trans framed)
    rw [same, decodeBody]
    rcases decodeUpdate_of_contents (Prod.ext ran rfl) with
      ⟨complete, message, run, has⟩ | ⟨code, middle, lacking, run⟩
    · rw [run]
      exact .inl ⟨complete, message, rfl, has⟩
    · rw [run]
      exact .inr ⟨code, lacking, rfl⟩
  · cases header.symm.trans framed

theorem carries_of_update (run : (decodeMsg family as4Enabled ⟨data⟩).1 =
      .ok (.update withdrawnRoutes attributes nlri)) :
    ∃ contents, Carries family as4Enabled data contents ∧ contents.lacks = none ∧
      Has contents (.update withdrawnRoutes attributes nlri) := by
  obtain ⟨messageType, framed, body⟩ := decodeMsg_eq_ok (Prod.ext run rfl)
  obtain rfl : MessageType.update = messageType := decodeBody_msgType _ _ _ _ _ _ _ _ body
  obtain ⟨contents, ran, complete, has⟩ := contents_of_decodeUpdate body
  exact ⟨contents, ⟨framed, congrArg Prod.fst ran⟩, complete, has⟩

theorem mandatoryExactly_iff_whole (family : AddressFamily) (as4Enabled : Bool)
    (data : List UInt8) : MandatoryExactly family as4Enabled data ↔
      ∀ contents, Carries family as4Enabled data contents → contents.Whole := by
  constructor
  · intro exactly contents carries
    rcases carries.checked with ⟨complete, message, run, has⟩ | ⟨code, lacking, refused⟩
    · rcases has with ⟨withdrawnRoutes, attributes, nlri, rfl, ⟨codes, empty⟩, routes⟩
      rw [contents.lacks_eq_none_iff] at complete
      refine ⟨fun announces => ?_, fun _ absent nonempty => ?_⟩
      · have all := exactly.nlri _ _ _ run (by simp [routes, announces])
        simp only [codes, List.cons_subset] at all
        refine ⟨Nat.pos_of_ne_zero fun none => ?_, fun _ => all.2.2.1⟩
        simp [empty none] at all
      · simpa [absent] using complete nonempty
    have incomplete : contents.lacks ≠ none := by simp [lacking]
    rw [Ne, contents.lacks_eq_none_iff] at incomplete
    rcases Classical.not_imp.mp incomplete with ⟨nonempty, incomplete⟩
    refine ⟨fun _ => ⟨nonempty, fun all => absurd ?_ incomplete⟩, fun withdraws absent _ => ?_⟩
    · simp only [List.cons_subset] at all
      exact ⟨all.1, all.2.1, .inr all.2.2.1⟩
    · exact absurd refused (exactly.nothing contents carries withdraws absent code)
  · intro whole
    refine ⟨fun withdrawnRoutes attributes nlri run nonempty => ?_, ?_, ?_⟩
    · rcases carries_of_update run with ⟨contents, carries, complete, _, _, _, ⟨⟩, ⟨codes, _⟩,
          routes⟩
      rw [contents.lacks_eq_none_iff] at complete
      have announces : contents.nlri = true := by simpa [routes] using nonempty
      rcases (whole contents carries).announces announces with ⟨filled, nextHop⟩
      rcases complete filled with ⟨origin, asPath, hop | mpReach⟩
      · simp [codes, origin, asPath, hop]
      · have hop := nextHop (by simp [origin, asPath, mpReach])
        simp [codes, origin, asPath, hop]
    · intro withdrawnRoutes attributes nlri run base other nextHops routes member _
      rcases carries_of_update run with ⟨contents, carries, complete, _, _, _, ⟨⟩, ⟨codes, empty⟩,
          _⟩
      rw [contents.lacks_eq_none_iff] at complete
      have filled : 0 < contents.length := by
        refine Nat.pos_of_ne_zero fun none => ?_
        rw [← codes, List.map_eq_nil_iff] at empty
        simp [empty none] at member
      rcases complete filled with ⟨origin, asPath, _⟩
      simp [codes, origin, asPath]
    · intro contents carries withdraws absent code refused
      rcases carries.checked with ⟨_, message, run, _⟩ | ⟨code, lacking, _⟩
      · rw [run] at refused
        cases refused
      have complete : contents.lacks = none := by
        rw [contents.lacks_eq_none_iff]
        intro filled
        have all := (whole contents carries).withdraws withdraws absent filled
        simp only [List.cons_subset] at all
        exact ⟨all.1, all.2.1, .inl all.2.2.1⟩
      rw [complete] at lacking
      cases lacking

end Checked

def bareUpdate : List UInt8 :=
  List.replicate 16 0xff ++ [0x00, 0x19, 0x02, 0x00, 0x00, 0x00, 0x00, 0x08, 0x0a]

theorem not_mandatoryExactly_of_accepted [Profile]
    (accepted : (decodeMsg .ipv4Unicast true ⟨bareUpdate⟩).1 =
      .ok (.update [] [] [⟨.v4 (.ofLength 0x0a000000 8), none⟩])) :
    ¬MandatoryExactly .ipv4Unicast true bareUpdate := by
  intro exactly
  simpa using exactly.nlri _ _ _ accepted (by simp)

theorem not_mandatoryExactly_bareUpdate :
    ¬@MandatoryExactly .checked .ipv4Unicast true bareUpdate ∧
      ¬@MandatoryExactly .wrapping .ipv4Unicast true bareUpdate :=
  ⟨@not_mandatoryExactly_of_accepted .checked (by decide),
    @not_mandatoryExactly_of_accepted .wrapping (by decide)⟩

end Message

end Sart
