import GMServer.BoostNet.NetPacket

/-!
# TCP sessions

The data of a `TCPSession` and the pieces of its member functions that run
without interruption.  Operations that were started on the socket and have not
completed belong to the systems around the session.
-/

namespace GMServer
namespace BoostNet

open Frames

/-- A shared packet, equal to another one exactly when the pointers are. -/
structure NetPacketPtr where
  mPointer : Nat
  mPacket : NetPacket
  deriving DecidableEq, Repr

/-- What a handler of the session is set to. -/
inductive SessionHandle where
  | unset
  | ignore
  | owner
  deriving DecidableEq, Repr

structure TCPSession where
  m_iPackLen : uint16_t
  m_pReadMsg : Option NetPacket
  m_listSend : List NetPacketPtr
  m_OnDisconnectHandle : SessionHandle
  m_OnMsgHandle : SessionHandle
  deriving DecidableEq, Repr

/-!
# Transfers

What `TCPConnection` asks of the socket.  `ReadHead` calls `async_write`, as
`WriteData` does.
-/

inductive Transfer where
  | async_read (iLen : Nat)
  | async_write (bytes : Bytes)
  deriving DecidableEq, Repr

namespace TCPConnection

def ReadHead (pData : Bytes) : Transfer := .async_write pData

def ReadBody (iLen : Nat) : Transfer := .async_read iLen

def WriteData (pData : Bytes) : Transfer := .async_write pData

end TCPConnection

namespace TCPSession

/-!
# Construction

`m_iPackLen` is not initialised by the constructor.
-/

def new (m_iPackLen : uint16_t) : TCPSession :=
  { m_iPackLen := m_iPackLen,
    m_pReadMsg := none,
    m_listSend := [],
    m_OnDisconnectHandle := .unset,
    m_OnMsgHandle := .unset }

def SetDisconnctHandle (s : TCPSession) (handle : SessionHandle) : TCPSession :=
  { s with m_OnDisconnectHandle := handle }

def SetOnMsgHandle (s : TCPSession) (handle : SessionHandle) : TCPSession :=
  { s with m_OnMsgHandle := handle }

/-- The part of `DisConnect` before it closes the connection. -/
def ignoreHandles (s : TCPSession) : TCPSession :=
  (s.SetOnMsgHandle .ignore).SetDisconnctHandle .ignore

/-!
# The send queue

The critical sections under `m_MsgMutex`.  The first two answer with `bDoSend`,
the third with the packet to write.  `DoSend` calls `pop_front` also when the
list is empty; that is undefined, so there is no result.
-/

def SendPacket (s : TCPSession) (pPacket : NetPacketPtr) : TCPSession × Bool :=
  ({ s with m_listSend := s.m_listSend ++ [pPacket] }, s.m_listSend.isEmpty)

def SendPacketList (s : TCPSession) (listPacket : List NetPacketPtr) :
    TCPSession × Bool :=
  ({ s with m_listSend := s.m_listSend ++ listPacket }, s.m_listSend.isEmpty)

def DoSend (s : TCPSession) : Option (TCPSession × NetPacketPtr) :=
  match s.m_listSend with
  | [] => none
  | pSend :: rest => some ({ s with m_listSend := rest }, pSend)

/-- What the completion of a failed write does to the queue. -/
def putBack (s : TCPSession) (pSend : NetPacketPtr) : TCPSession :=
  { s with m_listSend := pSend :: s.m_listSend }

/-!
# Reading

`ReadHead` passes the two bytes of `m_iPackLen`, and `ReadBody` makes a packet
of that size and passes its data part.
-/

def ReadHead (s : TCPSession) : Transfer :=
  TCPConnection.ReadHead (lengthBytes s.m_iPackLen.toNat)

def ReadBody (s : TCPSession) : TCPSession × Transfer :=
  ({ s with m_pReadMsg := some (NetPacket.ofSize s.m_iPackLen) },
    TCPConnection.ReadBody s.m_iPackLen.toNat)

end TCPSession
end BoostNet
end GMServer
