import Oxgraph.Db.Query.Token

/-! How the server reads one request from a stream, and splits it into head and body. -/

namespace Oxgraph.Daemon

variable {E : Type}

/-- Product facade errors that a request meets, over what a stream reports. -/
inductive OxgraphdError (E : Type) where
  | io (operation : String) (source : E)
  | usage (message : String)
  deriving DecidableEq

/-- What the reads of a stream return, one after another; then the stream is at its end. -/
abbrev Reads (E : Type) := List (Except E Bytes)

/-- Maximum bytes accepted for one request, headers plus body. -/
def maxRequestBytes : Nat := 8 * 1024 * 1024

/-- The marker at the end of the headers. -/
def headerTerminator : Bytes := [0x0D, 0x0A, 0x0D, 0x0A]

/-- Returns the start index of the first occurrence of a needle. -/
def findSubsequence (haystack needle : Bytes) : Option Nat :=
  if needle.isEmpty ∨ haystack.length < needle.length then none
  else
    (List.range (haystack.length - needle.length + 1)).find? fun index =>
      (haystack.drop index).take needle.length = needle

-- Text lines and fields.

/-- Drops the carriage return at the end of a line. -/
def stripReturn (line : List Char) : List Char :=
  if line.getLast? = some '\r' then line.dropLast else line

/-- The lines of a text, from an unfinished line on; the last may lack its line feed. -/
def splitLines : List Char → List Char → List (List Char)
  | line, [] => if line.isEmpty then [] else [line]
  | line, char :: rest =>
    if char = '\n' then stripReturn line :: splitLines [] rest
    else splitLines (line ++ [char]) rest

/-- The lines of a text, without their endings. -/
def lines (text : String) : List String := (splitLines [] text.toList).map String.ofList

/-- Splits characters around the first occurrence of a pattern, from those before it on. -/
def splitAround (pattern : List Char) : List Char → List Char → Option (List Char × List Char)
  | front, [] => if pattern.isEmpty then some (front, []) else none
  | front, char :: rest =>
    if pattern.isPrefixOf (char :: rest) then some (front, (char :: rest).drop pattern.length)
    else splitAround pattern (front ++ [char]) rest

/-- Splits a text around the first occurrence of a pattern. -/
def splitOnce (pattern text : String) : Option (String × String) :=
  (splitAround pattern.toList [] text.toList).map fun (front, back) =>
    (String.ofList front, String.ofList back)

/-- Whether texts are the same up to the case of ASCII letters. -/
def eqIgnoreAsciiCase (left right : String) : Bool := toAsciiUppercase left = toAsciiUppercase right

/--
Parses the content length from a header block.

It is missing when the header is absent or unparseable; the request is then bodyless.
-/
def parseContentLength (headers : Bytes) : Option Nat := do
  let text ← fromUtf8 headers
  let fields := (lines text).filterMap (splitOnce ":")
  let (_, value) ← fields.find? fun (name, _) => eqIgnoreAsciiCase (trim name) "content-length"
  parseUnsigned usizeBound (trim value)

-- Reading.

/-- Reads until the end of the headers, or of the stream; also where the headers end. -/
def readHeaders : Bytes → Reads E → Except (OxgraphdError E) (Nat × Bytes × Reads E)
  | buffer, reads =>
    match findSubsequence buffer headerTerminator with
    | some position => .ok (position + 4, buffer, reads)
    | none =>
      if maxRequestBytes < buffer.length then
        .error (.usage "request headers exceed the size limit")
      else
        match reads with
        | [] => .ok (buffer.length, buffer, [])
        | .error source :: _ => .error (.io "read http request" source)
        | .ok read :: rest =>
          -- Closed before a full header block: what is there is served.
          if read.isEmpty then .ok (buffer.length, buffer, rest)
          else readHeaders (buffer ++ read) rest

/-- Reads until the buffer reaches a target, or the stream its end. -/
def readBody (target : Nat) : Bytes → Reads E → Except (OxgraphdError E) Bytes
  | buffer, reads =>
    if target ≤ buffer.length then .ok buffer
    else
      match reads with
      | [] => .ok buffer
      | .error source :: _ => .error (.io "read http body" source)
      | .ok read :: rest =>
        if read.isEmpty then .ok buffer else readBody target (buffer ++ read) rest

/-- The bytes of one request, framed by its content length when it declares one. -/
def readFrame (reads : Reads E) : Except (OxgraphdError E) Bytes := do
  let (headerEnd, buffer, rest) ← readHeaders [] reads
  match parseContentLength (buffer.take headerEnd) with
  | some contentLength =>
    let target := min (headerEnd + contentLength) (usizeBound - 1)
    if maxRequestBytes < target then .error (.usage "request body exceeds the size limit")
    else
      let buffer ← readBody target buffer rest
      -- What was read past the framed body is dropped.
      return buffer.take target
  | none => return buffer

/-- Reads one request using content-length framing. -/
def readHttpRequest (reads : Reads E) : Except (OxgraphdError E) String := do
  let buffer ← readFrame reads
  match fromUtf8 buffer with
  | some request => return request
  | none => .error (.usage "request bytes are not valid UTF-8")

end Oxgraph.Daemon
