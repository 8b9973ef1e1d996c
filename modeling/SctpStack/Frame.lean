import SctpStack.Timers

/-!
# What each operation leaves alone

The operations a handler is made of change one component of the socket each. These
lemmas say what they do to the others, so that a proof about a handler never unfolds
them.
-/

namespace SctpStack

namespace Socket

variable (s : Socket) (key k : AssociationKey)

/-! ## Associations -/

@[simp] theorem find?_setAssociation (assoc : Association) :
    (s.setAssociation key assoc).find? k = if k = key then some assoc else s.find? k :=
  KeyMap.get?_put _ _ _ _

@[simp] theorem find?_updateAssociation (f : Association → Association) :
    (s.updateAssociation key f).find? k = if k = key then (s.find? key).map f else s.find? k :=
  KeyMap.get?_modify _ _ _ _

@[simp] theorem find?_eraseAssociation :
    (s.eraseAssociation key).find? k = if k = key then none else s.find? k :=
  KeyMap.get?_erase _ _ _

@[simp] theorem find?_enqueuePacket (d : Deliverable) (p : SendPriority) :
    (s.enqueuePacket d p).find? k = s.find? k := rfl

@[simp] theorem find?_scheduleExpiration (t : ExpirationKey) (e : Time) (d : Deliverable) :
    (s.scheduleExpiration t e d).find? k = s.find? k := rfl

@[simp] theorem find?_cancelExpiration (t : ExpirationKey) :
    (s.cancelExpiration t).find? k = s.find? k := rfl

@[simp] theorem find?_cancelExpirations : (s.cancelExpirations key).find? k = s.find? k := rfl

@[simp] theorem find?_cancelExpirationsOfType (type : ExpirationTimerType) :
    (s.cancelExpirationsOfType key type).find? k = s.find? k := rfl

@[simp] theorem find?_purgeSends : (s.purgeSends key).find? k = s.find? k := rfl

@[simp] theorem find?_removeRetransmissionsOfType (type : ChunkType) (d : Option SockAddr) :
    (s.removeRetransmissionsOfType key type d).find? k = s.find? k := rfl

@[simp] theorem find?_removeAckedRetransmissions (sack : SackChunkValue) :
    (s.removeAckedRetransmissions key sack).find? k = s.find? k := rfl

@[simp] theorem find?_notify (payload : NotificationPayload) :
    (s.notify key payload).find? k = s.find? k := rfl

@[simp] theorem find?_forgetPeerAddresses : (s.forgetPeerAddresses key).find? k = s.find? k := rfl

@[simp] theorem find?_detachReceives : (s.detachReceives key).find? k = s.find? k := rfl

@[simp] theorem find?_reply (d : SockAddr) (p : Packet) : (s.reply key d p).find? k = s.find? k :=
  rfl

end Socket

end SctpStack
