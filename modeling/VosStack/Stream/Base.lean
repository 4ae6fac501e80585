import VosStack.Basic
import VosStack.Transition.Run

/-!
# `CFSStreamBase`

A stream cuts what its transport delivers into messages with a user-supplied
`HandleMessage`, which says how many bytes of those shown to it are one message. What is
left over waits in `m_pMbRcvBuf` for more data; what the transport could not send waits in
`m_pMbSendBuf` for its `OnSend`.

The class only copies, appends and splits the bytes and asks `HandleMessage` about them, so
the model is generic in the type `α` of bytes; provenance of bytes is then an instance.
`NULL` and an empty chain are both `[]`: the two tests that tell them apart (`m_pMbRcvBuf ==
NULL`, `!m_pMbSendBuf`) choose between copying the data and appending it to nothing.

`HandleMessage` and the transport's `SendData` do not call the stream back. `SendData`
takes some number of bytes off the front of what it is given.

`m_dwSendBufMaxLen`, `m_bisSendoverbuffer` and the two addresses are written and never
read, and are left out.
-/

namespace VosStack.Stream

/-- `CFSStreamBase`. -/
structure CFSStreamBase (α : Type*) where
  /-- `m_pTransport`: the attached transport, by number -/
  transport : Option ℕ
  /-- `m_pConnector` is set -/
  connector : Bool
  /-- `m_pMbSendBuf` -/
  sendBuf : List α
  /-- `m_pMbRcvBuf` -/
  rcvBuf : List α
  /-- `m_bConnected` -/
  connected : Bool
  /-- `m_bIsClient` -/
  isClient : Bool
  /-- `m_dwRcvBufMaxLen` -/
  rcvBufMaxLen : ℕ
  /-- `m_bisRcvoverbuffer` -/
  rcvOverBuffer : Bool
  deriving DecidableEq, Repr

namespace CFSStreamBase

variable {α : Type*}

/-- The constructor. -/
def init : CFSStreamBase α where
  transport := none
  connector := false
  sendBuf := []
  rcvBuf := []
  connected := false
  isClient := false
  rcvBufMaxLen := 1024 * 32
  rcvOverBuffer := false

/-- `SetRcvBufferSize`. -/
def setRcvBufferSize (s : CFSStreamBase α) (bufferSize : ℕ) : CFSStreamBase α :=
  { s with rcvBufMaxLen := if bufferSize > 1024 * 32 then 1024 * 32 else bufferSize }

/-! ### Receiving -/

/-- The loop of `OnReceive`: `preaddata` is what is left to show to `HandleMessage`, and
`totalsize` what has been consumed. Returns the messages and the final `totalsize`. The
fuel is the length of the data; every round consumes at least one byte. -/
def handleLoop (handleMessage : List α → ℕ) : ℕ → List α → ℕ → List (List α) × ℕ
  | 0, _, totalsize => ([], totalsize)
  | fuel + 1, preaddata, totalsize =>
      if preaddata.length > 0 then
        let wLength := handleMessage preaddata
        if wLength > preaddata.length then ([], totalsize)
        else if wLength = 0 then ([], totalsize)
        else
          let (ms, total) :=
            handleLoop handleMessage fuel (preaddata.drop wLength) (totalsize + wLength)
          (preaddata.take wLength :: ms, total)
      else ([], totalsize)

/-- `OnReceive`: the new stream and the messages consumed. The limit is tested against what
is already buffered, and a chunk that comes too late is dropped. -/
def onReceive (handleMessage : List α → ℕ) (s : CFSStreamBase α) (aData : List α) :
    CFSStreamBase α × List (List α) :=
  if aData.length = 0 then (s, [])
  else if s.rcvBuf.length > s.rcvBufMaxLen then ({ s with rcvOverBuffer := true }, [])
  else
    let pBuf := s.rcvBuf ++ aData
    let (ms, totalsize) := handleLoop handleMessage pBuf.length pBuf 0
    ({ s with rcvBuf := pBuf.drop totalsize }, ms)

/-- `OnReceive` touches only the receive buffer and its overflow flag. -/
theorem onReceive_frame (handleMessage : List α → ℕ) (s : CFSStreamBase α) (aData : List α) :
    ∃ rcvBuf rcvOverBuffer,
      (s.onReceive handleMessage aData).1 = { s with rcvBuf, rcvOverBuffer } := by
  rw [onReceive]
  split_ifs <;> exact ⟨_, _, rfl⟩

/-- The bytes that `OnReceive` shows to `HandleMessage`: all of them in the first call, and
ever shorter ends of them in the calls that follow. -/
def shown (s : CFSStreamBase α) (aData : List α) : List α :=
  if aData.length = 0 ∨ s.rcvBuf.length > s.rcvBufMaxLen then [] else s.rcvBuf ++ aData

/-- `OnReceive` of one chunk after the other: the final stream and all messages. -/
def receiveAll (handleMessage : List α → ℕ) :
    CFSStreamBase α → List (List α) → CFSStreamBase α × List (List α)
  | s, [] => (s, [])
  | s, c :: cs =>
      let (s₁, ms₁) := s.onReceive handleMessage c
      let (s₂, ms₂) := receiveAll handleMessage s₁ cs
      (s₂, ms₁ ++ ms₂)

/-! ### Sending -/

/-- `SendMessage` with a transport that takes `taken` bytes. -/
def sendMessage (s : CFSStreamBase α) (aData : List α) (taken : ℕ) : CFSStreamBase α :=
  { s with sendBuf := (s.sendBuf ++ aData).drop taken }

/-- `SendMessage` called with `m_pMbSendBuf` itself: the whole of it is advanced over,
whatever the transport took. -/
def sendMessageBuf (s : CFSStreamBase α) (taken : ℕ) : CFSStreamBase α :=
  { s with sendBuf := (s.sendBuf.drop taken).drop s.sendBuf.length }

/-- `OnSend` with a transport that takes `taken` bytes. -/
def onSend (s : CFSStreamBase α) (taken : ℕ) : CFSStreamBase α :=
  { s with sendBuf := s.sendBuf.drop taken }

/-! ### Connecting -/

/-- `Connect`: `created` is whether the connector could be created. -/
def connect (s : CFSStreamBase α) (created : Bool) : CFSStreamBase α :=
  if created then { s with transport := none, connector := true, isClient := true }
  else { s with transport := none, connector := false }

/-- `SetTransportHandle`: `opened` is whether `OpenWithSink` succeeded. The transport is
attached either way. -/
def setTransportHandle (s : CFSStreamBase α) (trpt : ℕ) (opened : Bool) : CFSStreamBase α :=
  { s with transport := some trpt, connected := opened || s.connected }

/-- `OnDisconnect`. -/
def onDisconnect (s : CFSStreamBase α) : CFSStreamBase α :=
  { s with transport := none, connected := false }

/-- `Close`. -/
def close (s : CFSStreamBase α) : CFSStreamBase α :=
  { s with transport := none, connector := false }

end CFSStreamBase

end VosStack.Stream
