import Sart.Packet.RoundTrip

/-!
# What the decoder returns

A codec reads withdrawn routes and NLRI with the family it was made with, which
is IPv4 unicast, whatever octets it is given.
-/

namespace Sart

open Sart.Lib Sart.Lib.Reader

theorem Prefix.decode_afi (family : AddressFamily) (addPath : Bool) :
    Returns (fun network => network.inner.afi = family.afi) (Prefix.decode family addPath) := by
  refine .bind_any fun id => .bind_any fun length => ?_
  cases family.afi with
  | ipv4 | ipv6 =>
    refine .bind_any fun octets => ?_
    split_ifs
    · exact .pure rfl
    · exact .fail

namespace Message

def WithdrawsIpv4 : Message → Prop
  | .update withdrawnRoutes _ _ => ∀ network ∈ withdrawnRoutes, network.inner.afi = .ipv4
  | _ => True

theorem decodeWithdrawnRoutes_afi [Profile] (family : AddressFamily) :
    Returns (fun networks => ∀ network ∈ networks, network.inner.afi = family.afi)
      (decodeWithdrawnRoutes family) :=
  .bind_any fun _ => .ite (fun _ => .bind_any fun _ => .bind_any fun _ =>
    .whileLeft (Prefix.decode_afi family false)) fun _ => .pure (by simp)

theorem decodeMsg_withdrawsIpv4 [Profile] (as4Enabled : Bool) :
    Returns WithdrawsIpv4 (decodeMsg .ipv4Unicast as4Enabled) := by
  refine decodeMsg_returns fun length tail messageType => ?_
  cases messageType with
  | update =>
    exact (decodeWithdrawnRoutes_afi _).bind fun _ known => .bind_any fun _ => .bind_any fun _ =>
      .pure known
  | _ =>
    refine (decodeBody_msgType _ _ _ _ _).weaken fun message other => ?_
    cases message with
    | update => cases other
    | _ => trivial

/-- A codec can return the message, in a build with or without overflow checks. -/
def Decoded (message : Message) : Prop :=
  ∃ (_ : Profile) (as4Enabled pathIdEnabled : Bool) (octets : List UInt8)
      (messages : List Message),
    ((Codec.new as4Enabled pathIdEnabled).decode ⟨octets⟩).1 = .ok (some messages) ∧
      message ∈ messages

variable {message : Message}

theorem Decoded.withdrawsIpv4 (decoded : message.Decoded) :
    message.WithdrawsIpv4 := by
  rcases decoded with ⟨profile, as4Enabled, pathIdEnabled, octets, messages, returned, member⟩
  have codec : Returns WithdrawsIpv4 (decodeMsg (Codec.new as4Enabled pathIdEnabled).family
      (Codec.new as4Enabled pathIdEnabled).as4Enabled) := decodeMsg_withdrawsIpv4 as4Enabled
  exact Codec.decode_returns codec _ _ _ (Prod.ext returned rfl) messages rfl message member

theorem WellFormed.decoded {as4Enabled : Bool} (wellFormed : message.WellFormed as4Enabled)
    (survives : message.Survives) :
    message.Decoded := by
  let _ := Profile.wrapping
  have family : (Codec.new as4Enabled false).family = .ipv4Unicast := rfl
  rcases Codec.decode_encode_of_survives family wellFormed survives with ⟨octets, _, decoded⟩
  refine ⟨Profile.wrapping, as4Enabled, false, octets, [message], ?_, by simp⟩
  rw [Yields, List.append_nil] at decoded
  rw [decoded]

end Message

end Sart
