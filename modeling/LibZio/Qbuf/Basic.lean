import LibZio.Foundation.Slice
import LibZio.Foundation.Words

/-! # The queue buffer `qbuf`

A translation of `qbuf.c`. `rawbuf` is the memory block behind the `char *rawbuf` pointer, and a
pointer into it is a position. The offsets and lengths are `size_t`, so their arithmetic wraps. A
call that copies bytes returns `none` when the copy would leave the block, which is undefined
behaviour in C. What the allocator does is an argument: whether `calloc` succeeds, and for `realloc`
either failure or the indeterminate bytes behind the old contents of a block that grows. -/

namespace LibZio

/-- The default size of `qbuf_new`. -/
def RAW_SIZE : ℕ := 4096

/-- Compact whenever asked. -/
def QBUF_COLLECT_POLICY_NONE : BitVec 32 := 0

/-- Compact only when at most a quarter of the block is spare. -/
def QBUF_COLLECT_POLICY_LESS_SPARE : BitVec 32 := 1

/-- Compact only when at least a quarter of the block is garbage. -/
def QBUF_COLLECT_POLICY_LARGE_GARBAGE : BitVec 32 := 2

/-- `struct __queue_buf`. -/
structure QBuf where
  /-- The allocated block. -/
  rawbuf : List UInt8
  /-- The recorded length of the block. -/
  size : ℕ
  /-- Where the next byte is stored. -/
  offsetIn : ℕ
  /-- Where the next byte is taken. -/
  offsetOut : ℕ
  deriving DecidableEq, Repr

/-- The outcome of a `realloc`: failure, or the bytes of the block that have no old contents. -/
abbrev Realloc : Type := Option (ℕ → UInt8)

/-- `calloc(n, 1)`. -/
def zeroed (n : ℕ) : List UInt8 := List.replicate n 0

/-- The block `realloc` returns for `len` bytes: the old contents as far as they fit, then
`fill`. -/
def resized (rawbuf : List UInt8) (len : ℕ) (fill : ℕ → UInt8) : List UInt8 :=
  rawbuf.take len ++ (List.range (len - rawbuf.length)).map fill

/-- `qbuf_new`, given whether each of its two `calloc` calls succeeds. -/
def qbufNew (size : ℕ) (callocSelf callocRaw : Bool) : Option QBuf :=
  let size := if size = 0 then RAW_SIZE else size
  if !callocSelf then none
  else if !callocRaw then none
  else some { rawbuf := zeroed size, size := size, offsetIn := 0, offsetOut := 0 }

/-- `qbuf_realloc`: the `int` returned and the buffer after the call. -/
def qbufRealloc (self : QBuf) (len : ℕ) : Realloc → ℤ × QBuf
  | some fill => (0, { self with rawbuf := resized self.rawbuf len fill, size := len })
  | none => (-1, self)

/-- `qbuf_rawbuf_out_pos`, as a position in the block. -/
def qbufRawbufOutPos (self : QBuf) : ℕ := self.offsetOut

/-- `qbuf_rawbuf_in_pos`, as a position in the block. -/
def qbufRawbufInPos (self : QBuf) : ℕ := self.offsetIn

/-- `qbuf_size`. -/
def qbufSize (self : QBuf) : ℕ := self.size

/-- `qbuf_garbage`. -/
def qbufGarbage (self : QBuf) : ℕ := self.offsetOut

/-- `qbuf_used`. -/
def qbufUsed (self : QBuf) : ℕ := sizeSub self.offsetIn self.offsetOut

/-- `qbuf_spare`. -/
def qbufSpare (self : QBuf) : ℕ := sizeSub self.size self.offsetIn

/-- The flag `policy_do` of `qbuf_collect`: whether the policy wants the block compacted. -/
def policyDo (self : QBuf) (policy : BitVec 32) : Bool :=
  let policyDo := true
  let policyDo :=
    -- a flag can only withdraw the wish
    if hasFlag policy QBUF_COLLECT_POLICY_LESS_SPARE then
      if qbufSpare self > sizeShr2 self.size then false else policyDo
    else policyDo
  if hasFlag policy QBUF_COLLECT_POLICY_LARGE_GARBAGE then
    if qbufGarbage self < sizeShr2 self.size then false else policyDo
  else policyDo

/-- `qbuf_collect`: the spare space returned and the buffer after the call. -/
def qbufCollect (self : QBuf) (policy : BitVec 32) : Option (ℕ × QBuf) := do
  if qbufUsed self = 0 then
    let self := { self with offsetIn := 0, offsetOut := 0 }
    return (qbufSpare self, self)
  else if policyDo self policy then
    let stored ← load self.rawbuf (qbufRawbufOutPos self) (qbufUsed self)
    let rawbuf ← store self.rawbuf 0 stored
    -- `offset_in` is updated before `offset_out`, so `qbuf_used` still sees the old head
    let self := { self with rawbuf := rawbuf, offsetIn := qbufUsed self }
    let self := { self with offsetOut := 0 }
    return (qbufSpare self, self)
  else
    return (qbufSpare self, self)

/-- `qbuf_offset_out_head`: the used space returned and the buffer after the call. -/
def qbufOffsetOutHead (self : QBuf) (len : ℕ) : ℕ × QBuf :=
  let self := { self with offsetOut := sizeAdd self.offsetOut len }
  let self :=
    if self.offsetOut > self.offsetIn then { self with offsetOut := self.offsetIn } else self
  (qbufUsed self, self)

/-- `qbuf_offset_in_head`: the spare space returned and the buffer after the call. -/
def qbufOffsetInHead (self : QBuf) (len : ℕ) : ℕ × QBuf :=
  let self := { self with offsetIn := sizeAdd self.offsetIn len }
  let self := if self.offsetIn > self.size then { self with offsetIn := self.size } else self
  (qbufSpare self, self)

/-- `qbuf_peek`: the count returned and the bytes copied to the caller. -/
def qbufPeek (self : QBuf) (len : ℕ) : Option (ℕ × List UInt8) := do
  let lenCanOut := if len ≤ qbufUsed self then len else qbufUsed self
  let buf ← load self.rawbuf (qbufRawbufOutPos self) lenCanOut
  return (lenCanOut, buf)

/-- `qbuf_read`: the count returned, the bytes copied to the caller and the buffer after the call.
The count goes through an `int`. -/
def qbufRead (self : QBuf) (len : ℕ) : Option (ℕ × List UInt8 × QBuf) := do
  let (count, buf) ← qbufPeek self len
  let nread := intOfSize count
  let self := (qbufOffsetOutHead self (sizeOfInt nread)).2
  return (sizeOfInt nread, buf, self)

/-- `qbuf_write`: the count returned and the buffer after the call, given the outcome of the
`realloc` it may ask for. -/
def qbufWrite (self : QBuf) (buf : List UInt8) (re : Realloc) : Option (ℕ × QBuf) := do
  let len := buf.length
  let self ←
    if len > qbufSpare self then (·.2) <$> qbufCollect self QBUF_COLLECT_POLICY_NONE
    else some self
  let self :=
    if len > qbufSpare self then
      -- a failed `realloc` leaves the buffer, and what does not fit is not written
      (qbufRealloc self (if self.size > len then sizeShl1 self.size else sizeShl1 len) re).2
    else self
  let lenCanIn := if len ≤ qbufSpare self then len else qbufSpare self
  let rawbuf ← store self.rawbuf (qbufRawbufInPos self) (buf.take lenCanIn)
  let self := (qbufOffsetInHead { self with rawbuf := rawbuf } lenCanIn).2
  return (lenCanIn, self)

end LibZio
