import StonePlus.Js.Unicode
import StonePlus.Types

/-!
# StonePlus.FrameGuard.Guards

`ProtocolStreamFrameGuard` of `gateway/server.ts` and the two guards it chooses from: raw bytes
are counted before a parser keeps them.

A guard throws by `Except.error`.  It is not used again after that.
-/

namespace StonePlus.FrameGuard

/-- What the guards throw, as far as they set it. -/
structure GatewayHttpError where
  statusCode : Nat
  message : JsString
  type : JsString
  deriving DecidableEq

/-- The arguments of a guard's constructor. -/
structure Limits where
  maxFrameBytes : Nat
  message : JsString := js "Upstream stream frame exceeds the parser safety limit"
  errorType : JsString := js "upstream_stream_error"

/-- `new GatewayHttpError(502, message, errorType)`. -/
def Limits.fail (limits : Limits) : GatewayHttpError := ⟨502, limits.message, limits.errorType⟩

def isAsciiWhitespaceByte (byte : UInt8) : Bool :=
  byte == 0x20 || byte == 0x09 || byte == 0x0A || byte == 0x0D

/-- White space, or a byte of the UTF-8 byte order mark. -/
def isJsonPrefixByte (byte : UInt8) : Bool :=
  isAsciiWhitespaceByte byte || byte == 0xEF || byte == 0xBB || byte == 0xBF

/-! ## Server-sent events -/

/-- `DelimitedStreamFrameGuard`; a previous byte that is not there yet is -1 in the source. -/
structure DelimitedStreamFrameGuard where
  frameBytes : Nat := 0
  previous : Option UInt8 := none
  beforePrevious : Option UInt8 := none
  thirdPrevious : Option UInt8 := none

namespace DelimitedStreamFrameGuard

/-- LF LF or CR LF CR LF ends at a byte. -/
def delimits (g : DelimitedStreamFrameGuard) (byte : UInt8) : Bool :=
  (g.previous == some 0x0A && byte == 0x0A) ||
    (g.thirdPrevious == some 0x0D && g.beforePrevious == some 0x0A && g.previous == some 0x0D &&
      byte == 0x0A)

/-- The guard with a byte remembered. -/
def remember (g : DelimitedStreamFrameGuard) (frameBytes : Nat) (byte : UInt8) :
    DelimitedStreamFrameGuard :=
  { frameBytes, previous := some byte, beforePrevious := g.previous,
    thirdPrevious := g.beforePrevious }

def pushByte (limits : Limits) (g : DelimitedStreamFrameGuard) (byte : UInt8) :
    Except GatewayHttpError DelimitedStreamFrameGuard :=
  if g.delimits byte then .ok (g.remember 0 byte)
  else if limits.maxFrameBytes < g.frameBytes + 1 then .error limits.fail
  else .ok (g.remember (g.frameBytes + 1) byte)

def push (limits : Limits) (g : DelimitedStreamFrameGuard) (chunk : Bytes) :
    Except GatewayHttpError DelimitedStreamFrameGuard :=
  chunk.foldlM (pushByte limits) g

end DelimitedStreamFrameGuard

/-! ## JSON -/

inductive JsonRoot
  | single | array
  deriving DecidableEq

inductive ValueKind
  | container | string | scalar
  deriving DecidableEq

structure JsonStreamFrameGuard where
  root : Option JsonRoot := none
  rootComplete : Bool := false
  valueKind : Option ValueKind := none
  valueBytes : Nat := 0
  interstitialBytes : Nat := 0
  depth : Int := 0
  inString : Bool := false
  escaped : Bool := false
  deriving DecidableEq

namespace JsonStreamFrameGuard

/-- `++this.interstitialBytes > this.maxFrameBytes`. -/
def countInterstitial (limits : Limits) (g : JsonStreamFrameGuard) :
    Except GatewayHttpError JsonStreamFrameGuard :=
  if limits.maxFrameBytes < g.interstitialBytes + 1 then .error limits.fail
  else .ok { g with interstitialBytes := g.interstitialBytes + 1 }

def startValue (g : JsonStreamFrameGuard) (byte : UInt8) : JsonStreamFrameGuard :=
  if byte == 0x7B || byte == 0x5B then
    { g with
      valueBytes := 1, valueKind := some .container, depth := 1, inString := false,
      escaped := false }
  else if byte == 0x22 then
    { g with valueBytes := 1, valueKind := some .string, escaped := false }
  else { g with valueBytes := 1, valueKind := some .scalar }

def finishValue (g : JsonStreamFrameGuard) : JsonStreamFrameGuard :=
  { g with
    valueKind := none, valueBytes := 0, depth := 0, inString := false, escaped := false,
    interstitialBytes := 0, rootComplete := g.rootComplete || g.root == some .single }

/-- The bytes that end a scalar. -/
def endsScalar (g : JsonStreamFrameGuard) (byte : UInt8) : Bool :=
  isAsciiWhitespaceByte byte || byte == 0x2C || (g.root == some .array && byte == 0x5D)

/-- A counted byte of a string. -/
def stringByte (g : JsonStreamFrameGuard) (byte : UInt8) : JsonStreamFrameGuard :=
  if g.escaped then { g with escaped := false }
  else if byte == 0x5C then { g with escaped := true }
  else if byte == 0x22 then g.finishValue
  else g

/-- A counted byte of an object or an array. -/
def containerByte (g : JsonStreamFrameGuard) (byte : UInt8) : JsonStreamFrameGuard :=
  if g.inString then
    if g.escaped then { g with escaped := false }
    else if byte == 0x5C then { g with escaped := true }
    else if byte == 0x22 then { g with inString := false }
    else g
  else if byte == 0x22 then { g with inString := true }
  else if byte == 0x7B || byte == 0x5B then { g with depth := g.depth + 1 }
  else if byte == 0x7D || byte == 0x5D then
    if g.depth - 1 = 0 then { g with depth := g.depth - 1 }.finishValue
    else { g with depth := g.depth - 1 }
  else g

/-- The part of `pushByte` about a byte of a value. -/
def valueByte (limits : Limits) (g : JsonStreamFrameGuard) (kind : ValueKind) (byte : UInt8) :
    Except GatewayHttpError JsonStreamFrameGuard :=
  if kind = .scalar ∧ g.endsScalar byte then
    .ok { g.finishValue with
      rootComplete := g.finishValue.rootComplete || (byte == 0x5D && g.root == some .array) }
  else if limits.maxFrameBytes < g.valueBytes + 1 then .error limits.fail
  else
    let g := { g with valueBytes := g.valueBytes + 1 }
    match kind with
    | .string => .ok (g.stringByte byte)
    | .container => .ok (g.containerByte byte)
    | .scalar => .ok g

def pushByte (limits : Limits) (g : JsonStreamFrameGuard) (byte : UInt8) :
    Except GatewayHttpError JsonStreamFrameGuard :=
  if g.rootComplete then
    if isAsciiWhitespaceByte byte then .ok g else g.countInterstitial limits
  else
    match g.root, g.valueKind with
    | none, _ =>
      if isJsonPrefixByte byte then g.countInterstitial limits
      else if byte == 0x5B then .ok { g with interstitialBytes := 0, root := some .array }
      else .ok ({ g with interstitialBytes := 0, root := some .single }.startValue byte)
    | some .array, none =>
      if isAsciiWhitespaceByte byte || byte == 0x2C then g.countInterstitial limits
      else if byte == 0x5D then .ok { g with rootComplete := true }
      else .ok ({ g with interstitialBytes := 0 }.startValue byte)
    | some .single, none => .ok g
    | some _, some kind => g.valueByte limits kind byte

def push (limits : Limits) (g : JsonStreamFrameGuard) (chunk : Bytes) :
    Except GatewayHttpError JsonStreamFrameGuard :=
  chunk.foldlM (pushByte limits) g

end JsonStreamFrameGuard

/-! ## The guard of a protocol -/

inductive Framing
  | sse | json
  deriving DecidableEq

structure ProtocolStreamFrameGuard where
  framing : Option Framing
  pending : List Bytes := []
  pendingBytes : Nat := 0
  sse : DelimitedStreamFrameGuard := {}
  json : JsonStreamFrameGuard := {}

namespace ProtocolStreamFrameGuard

/-- The constructor. -/
def new (protocol : Protocol) : ProtocolStreamFrameGuard :=
  { framing := if protocol = .gemini then none else some .sse }

/-- The framing a byte stands for. -/
def framingOf (byte : UInt8) : Framing :=
  if byte == 0x7B || byte == 0x5B then .json else .sse

/-- A push into one of the two guards. -/
def pushTarget (limits : Limits) (g : ProtocolStreamFrameGuard) (framing : Framing)
    (chunk : Bytes) : Except GatewayHttpError ProtocolStreamFrameGuard :=
  match framing with
  | .sse => return { g with sse := ← g.sse.push limits chunk }
  | .json => return { g with json := ← g.json.push limits chunk }

def push (limits : Limits) (g : ProtocolStreamFrameGuard) (chunk : Bytes) :
    Except GatewayHttpError ProtocolStreamFrameGuard :=
  match g.framing with
  | some framing => g.pushTarget limits framing chunk
  | none =>
    let g := { g with
      pending := g.pending ++ [chunk], pendingBytes := g.pendingBytes + chunk.length }
    match chunk.find? fun byte => !isJsonPrefixByte byte with
    | some byte => do
      let target := framingOf byte
      let g' ← g.pending.foldlM (fun g pending => g.pushTarget limits target pending)
        { g with framing := some target }
      return { g' with pending := [], pendingBytes := 0 }
    | none => if limits.maxFrameBytes < g.pendingBytes then .error limits.fail else .ok g

/-- The guard pushed every chunk of a stream, in order. -/
def run (limits : Limits) (protocol : Protocol) (chunks : List Bytes) :
    Except GatewayHttpError ProtocolStreamFrameGuard :=
  chunks.foldlM (push limits) (new protocol)

end ProtocolStreamFrameGuard

end StonePlus.FrameGuard
