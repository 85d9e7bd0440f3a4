import Oxgraph.Daemon.Request
import Oxgraph.Lib.Chunks
import Oxgraph.Lib.Utf8

/-!
What the server reads as one request, against what the stream begins with.

Both read loops fill one buffer from chunks. With a content length the buffer is cut to the
frame. Without one it keeps what arrived in one chunk with the end of the headers.
-/

namespace Oxgraph.Daemon

/-- The most bytes that one read of a stream returns. -/
def chunkBytes : Nat := 4096

/-- The headers of a stream: through the first terminator, or all of it if there is none. -/
def headerBlock (stream : Bytes) : Bytes := Chunks.throughFirst headerTerminator stream

/-- What follows the headers of a stream. -/
def remaining (stream : Bytes) : Bytes := stream.drop (headerBlock stream).length

/-- The headers of a stream, and as much of the declared body as there is. -/
def framed (stream : Bytes) : Bytes :=
  match parseContentLength (headerBlock stream) with
  | some contentLength => headerBlock stream ++ (remaining stream).take contentLength
  | none => headerBlock stream

/-- The request that a stream begins with. -/
def framedRequest {E : Type} (stream : Bytes) : Except (OxgraphdError E) String :=
  match fromUtf8 (framed stream) with
  | some request => .ok request
  | none => .error (.usage "request bytes are not valid UTF-8")

/-- The headers of a stream and the body that they declare are within the size limit. -/
structure Fits (stream : Bytes) : Prop where
  headers : (headerBlock stream).length ≤ maxRequestBytes
  body : ∀ contentLength, parseContentLength (headerBlock stream) = some contentLength →
    (headerBlock stream).length + contentLength ≤ maxRequestBytes

/-- The headers of a stream end where one of its chunks does. -/
def EndsWithChunk (stream : Bytes) (chunks : List Bytes) : Prop :=
  ∃ count, (chunks.take count).flatten = headerBlock stream

end Oxgraph.Daemon

-- What is read as one request.

namespace Oxgraph.Daemon

variable {E : Type}

-- The marker.

/-- A needle ends a front of a haystack exactly where a window is the needle. -/
theorem suffix_take_iff {needle haystack : Bytes} {index : Nat}
    (room : index + needle.length ≤ haystack.length) :
    needle <:+ haystack.take (index + needle.length) ↔
      (haystack.drop index).take needle.length = needle := by
  have back : (haystack.take (index + needle.length)).length - needle.length = index := by
    rw [List.length_take]
    omega
  rw [List.suffix_iff_eq_drop, back, List.drop_take, Nat.add_sub_cancel_left, eq_comm]

/-- A needle that ends a front of a haystack begins inside it. -/
theorem length_le_of_suffix_take {needle haystack : Bytes} {stop : Nat}
    (ends : needle <:+ haystack.take stop) : needle.length ≤ stop := by
  have short := ends.length_le
  rw [List.length_take] at short
  omega

/-- A needle is found where its first occurrence ends, less its length. -/
theorem findSubsequence_eq {needle : Bytes} (given : needle ≠ []) (haystack : Bytes) :
    (findSubsequence haystack needle).map (· + needle.length) =
      Chunks.firstEnd needle haystack := by
  have positive := List.length_pos_of_ne_nil given
  rw [findSubsequence]
  by_cases small : haystack.length < needle.length
  · rw [if_pos (.inr small), Option.map_none, eq_comm, Chunks.firstEnd_eq_none]
    intro stop inside ends
    have room := length_le_of_suffix_take ends
    omega
  · rw [if_neg (by simp [given, small])]
    cases found : (List.range (haystack.length - needle.length + 1)).find? fun index =>
        (haystack.drop index).take needle.length = needle with
    | none =>
      rw [Option.map_none, eq_comm, Chunks.firstEnd_eq_none]
      intro stop inside ends
      have room := length_le_of_suffix_take ends
      -- The window that ends here was looked at.
      have window := List.find?_range_eq_none.mp found (stop - needle.length) (by omega)
      rw [show stop = stop - needle.length + needle.length by omega,
        suffix_take_iff (by omega)] at ends
      simp [ends] at window
    | some index =>
      obtain ⟨window, inside, first⟩ := List.find?_range_eq_some.mp found
      rw [List.mem_range] at inside
      rw [Option.map_some, eq_comm, Chunks.firstEnd_eq_some]
      refine ⟨by omega, (suffix_take_iff (by omega)).mpr (by simpa using window), ?_⟩
      intro before less ends
      have room := length_le_of_suffix_take ends
      have earlier := first (before - needle.length) (by omega)
      rw [show before = before - needle.length + needle.length by omega,
        suffix_take_iff (by omega)] at ends
      simp [ends] at earlier

/-- The reader looks for the end of the headers where the first terminator ends. -/
theorem firstEnd_headerTerminator (buffer : Bytes) :
    (findSubsequence buffer headerTerminator).map (· + 4) =
      Chunks.firstEnd headerTerminator buffer :=
  findSubsequence_eq (by decide) buffer

-- The read loops.

/-- Whether a buffer holds the end of the headers. -/
def holdsHeaders (buffer : Bytes) : Bool := (Chunks.firstEnd headerTerminator buffer).isSome

section Steps

variable {buffer : Bytes} {reads : Reads E}

/-- A buffer without the end of the headers has no terminator to find. -/
theorem findSubsequence_of_missing
    (missing : Chunks.firstEnd headerTerminator buffer = none) :
    findSubsequence buffer headerTerminator = none := by
  rwa [← firstEnd_headerTerminator, Option.map_eq_none_iff] at missing

/-- Nothing is read once the end of the headers is there. -/
theorem readHeaders_found {stop : Nat}
    (found : Chunks.firstEnd headerTerminator buffer = some stop) :
    readHeaders buffer reads = .ok (stop, buffer, reads) := by
  rw [← firstEnd_headerTerminator, Option.map_eq_some_iff] at found
  obtain ⟨position, there, ends⟩ := found
  rw [readHeaders.eq_def]
  simp only [there, ends]

/-- At the end of the stream all that is there counts as the headers. -/
theorem readHeaders_nil (missing : Chunks.firstEnd headerTerminator buffer = none)
    (short : buffer.length ≤ maxRequestBytes) :
    readHeaders buffer ([] : Reads E) = .ok (buffer.length, buffer, []) := by
  rw [readHeaders.eq_def]
  simp only [findSubsequence_of_missing missing]
  rw [if_neg (by omega)]

/-- A chunk is appended while the end of the headers is missing. -/
theorem readHeaders_cons {chunk : Bytes}
    (missing : Chunks.firstEnd headerTerminator buffer = none)
    (short : buffer.length ≤ maxRequestBytes) (given : 1 ≤ chunk.length) :
    readHeaders buffer (.ok chunk :: reads) = readHeaders (buffer ++ chunk) reads := by
  have held : chunk.isEmpty = false :=
    List.isEmpty_eq_false_iff.mpr (List.ne_nil_of_length_pos given)
  rw [readHeaders.eq_def]
  simp only [findSubsequence_of_missing missing, held]
  rw [if_neg (by omega), if_neg (by simp)]

end Steps

/-- Reading the headers fills the buffer until their end is there. -/
theorem readHeaders_eq (buffer : Bytes) (chunks : List Bytes)
    (nonempty : ∀ chunk ∈ chunks, 1 ≤ chunk.length)
    (fits : (headerBlock (buffer ++ chunks.flatten)).length ≤ maxRequestBytes) :
    readHeaders buffer (chunks.map .ok : Reads E) =
      .ok ((headerBlock (Chunks.fill holdsHeaders buffer chunks).1).length,
        (Chunks.fill holdsHeaders buffer chunks).1,
        (Chunks.fill holdsHeaders buffer chunks).2.map .ok) := by
  induction chunks generalizing buffer with
  | nil =>
    rw [Chunks.fill, headerBlock, List.map_nil]
    rw [List.flatten_nil, List.append_nil, headerBlock] at fits
    cases found : Chunks.firstEnd headerTerminator buffer with
    | none =>
      rw [Chunks.throughFirst_of_none found] at fits ⊢
      exact readHeaders_nil found fits
    | some stop =>
      have inside := (Chunks.firstEnd_eq_some.mp found).1
      rw [Chunks.throughFirst_of_some found, List.length_take, Nat.min_eq_left inside]
      exact readHeaders_found found
  | cons chunk rest ih =>
    cases found : Chunks.firstEnd headerTerminator buffer with
    | none =>
      have missing : holdsHeaders buffer = false := by rw [holdsHeaders, found, Option.isSome_none]
      have short : buffer.length ≤ maxRequestBytes :=
        (Chunks.length_le_throughFirst found).trans fits
      rw [List.map_cons, readHeaders_cons found short (nonempty chunk List.mem_cons_self),
        Chunks.fill, missing, if_neg (by simp)]
      refine ih (buffer ++ chunk) (fun other member => nonempty other
        (List.mem_cons_of_mem chunk member)) ?_
      rwa [List.append_assoc, ← List.flatten_cons]
    | some stop =>
      have there : holdsHeaders buffer = true := by rw [holdsHeaders, found, Option.isSome_some]
      have inside := (Chunks.firstEnd_eq_some.mp found).1
      rw [Chunks.fill, there, if_pos rfl, headerBlock, Chunks.throughFirst_of_some found,
        List.length_take, Nat.min_eq_left inside]
      exact readHeaders_found found

/-- Reading the body fills the buffer up to its target. -/
theorem readBody_eq (target : Nat) (buffer : Bytes) (chunks : List Bytes)
    (nonempty : ∀ chunk ∈ chunks, 1 ≤ chunk.length) :
    readBody target buffer (chunks.map .ok : Reads E) =
      .ok (Chunks.fill (fun held => target ≤ held.length) buffer chunks).1 := by
  induction chunks generalizing buffer with
  | nil =>
    rw [readBody.eq_def, Chunks.fill, List.map_nil]
    exact ite_self _
  | cons chunk rest ih =>
    rw [readBody.eq_def, Chunks.fill]
    by_cases reached : target ≤ buffer.length
    · simp only [reached, if_true, decide_true]
    · have some := nonempty chunk List.mem_cons_self
      have held : chunk.isEmpty = false := by
        rw [List.isEmpty_eq_false_iff]
        exact List.ne_nil_of_length_pos some
      simp only [List.map_cons, reached, if_false, decide_false, held, Bool.false_eq_true]
      exact ih (buffer ++ chunk) fun other member =>
        nonempty other (List.mem_cons_of_mem chunk member)

-- One request.

/-- The headers are a front of the stream. -/
theorem headerBlock_eq_take (stream : Bytes) :
    headerBlock stream = stream.take (headerBlock stream).length :=
  List.prefix_iff_eq_take.mp Chunks.throughFirst_prefix

/-- With a content length the frame is a front of the stream. -/
theorem framed_of_some {stream : Bytes} {contentLength : Nat}
    (declared : parseContentLength (headerBlock stream) = some contentLength) :
    framed stream = stream.take ((headerBlock stream).length + contentLength) := by
  rw [framed, declared, remaining, List.take_add, ← headerBlock_eq_take]

/-- Without a content length the frame is the headers. -/
theorem framed_of_none {stream : Bytes}
    (absent : parseContentLength (headerBlock stream) = none) :
    framed stream = headerBlock stream := by
  rw [framed, absent]

/-- What the buffer holds when the end of the headers is found. -/
def headersBuffer (chunks : List Bytes) : Bytes := (Chunks.fill holdsHeaders [] chunks).1

section Delivered

variable {stream : Bytes} {chunks : List Bytes}

/-- The headers in the buffer are those of the stream. -/
theorem headerBlock_headersBuffer (delivered : chunks.flatten = stream) :
    headerBlock (headersBuffer chunks) = headerBlock stream := by
  rw [← delivered]
  exact Chunks.throughFirst_fill chunks

/-- The buffer is a front of the stream. -/
theorem headersBuffer_append (delivered : chunks.flatten = stream) :
    headersBuffer chunks ++ (Chunks.fill holdsHeaders [] chunks).2.flatten = stream := by
  rw [← delivered]
  exact Chunks.fill_flatten holdsHeaders [] chunks

/-- The frame is what is kept with a content length, and the whole buffer without one. -/
theorem readFrame_eq (delivers : Chunks.Delivers chunkBytes chunks stream) (fits : Fits stream) :
    readFrame (chunks.map .ok : Reads E) =
      .ok (if (parseContentLength (headerBlock stream)).isSome then framed stream
        else headersBuffer chunks) := by
  have headers := headerBlock_headersBuffer delivers.flatten
  have whole := headersBuffer_append delivers.flatten
  have read : readHeaders [] (chunks.map .ok : Reads E) =
      .ok ((headerBlock stream).length, headersBuffer chunks,
        (Chunks.fill holdsHeaders [] chunks).2.map .ok) := by
    rw [← headers]
    refine readHeaders_eq [] chunks delivers.nonempty ?_
    rw [List.nil_append, delivers.flatten]
    exact fits.headers
  have block : (headersBuffer chunks).take (headerBlock stream).length = headerBlock stream := by
    rw [← headers, ← headerBlock_eq_take]
  rw [readFrame, read]
  simp only [bind, Except.bind, block]
  cases declared : parseContentLength (headerBlock stream) with
  | none => rfl
  | some contentLength =>
    -- The target is within the limit, so it is not capped.
    have within := fits.body contentLength declared
    have capped : min ((headerBlock stream).length + contentLength) (usizeBound - 1) =
        (headerBlock stream).length + contentLength := by
      have room : maxRequestBytes ≤ usizeBound - 1 := by decide
      omega
    have body := readBody_eq (E := E) ((headerBlock stream).length + contentLength)
      (headersBuffer chunks) (Chunks.fill holdsHeaders [] chunks).2
      fun chunk member => delivers.nonempty chunk (Chunks.mem_of_mem_fill member)
    simp only [capped]
    rw [if_neg (by omega), body]
    simp only [pure, Except.pure, Option.isSome_some, if_true]
    rw [Chunks.take_fill, whole, framed_of_some declared]

/-- With a content length, what is read is the request that the stream begins with. -/
theorem readHttpRequest_of_some (delivers : Chunks.Delivers chunkBytes chunks stream)
    (fits : Fits stream) (declared : (parseContentLength (headerBlock stream)).isSome) :
    readHttpRequest (chunks.map .ok : Reads E) = framedRequest stream := by
  rw [readHttpRequest, readFrame_eq delivers fits, if_pos declared]
  rfl

/-- Without a content length, what is read is all that is in the buffer. -/
theorem readHttpRequest_of_none (delivers : Chunks.Delivers chunkBytes chunks stream)
    (fits : Fits stream) (absent : parseContentLength (headerBlock stream) = none) :
    readHttpRequest (chunks.map .ok : Reads E) =
      match fromUtf8 (headersBuffer chunks) with
      | some request => .ok request
      | none => .error (.usage "request bytes are not valid UTF-8") := by
  rw [readHttpRequest, readFrame_eq delivers fits, if_neg (by simp [absent])]
  rfl

/-- The buffer ends with the headers exactly when a chunk does. -/
theorem headersBuffer_eq_iff (delivered : chunks.flatten = stream) :
    headersBuffer chunks = headerBlock stream ↔ EndsWithChunk stream chunks := by
  rw [EndsWithChunk, ← delivered]
  exact Chunks.fill_eq_throughFirst_iff chunks

/-- A buffer that holds more than the headers is not valid UTF-8 where they are not. -/
theorem fromUtf8_headersBuffer_of_none (delivered : chunks.flatten = stream)
    (apart : headersBuffer chunks ≠ headerBlock stream)
    (invalid : fromUtf8 (headerBlock stream) = none) :
    fromUtf8 (headersBuffer chunks) = none := by
  have headers := headerBlock_headersBuffer delivered
  cases found : Chunks.firstEnd headerTerminator (headersBuffer chunks) with
  | none =>
    rw [← headers, headerBlock, Chunks.throughFirst_of_none found] at apart
    exact absurd rfl apart
  | some stop =>
    -- The headers end with a line feed, which is an ASCII byte.
    obtain ⟨-, ends, -⟩ := Chunks.firstEnd_eq_some.mp found
    rw [← Chunks.throughFirst_of_some found, ← headerBlock, headers] at ends
    obtain ⟨front, block⟩ := ends
    obtain ⟨extra, buffer⟩ : headerBlock stream <+: headersBuffer chunks := by
      rw [← headers]
      exact Chunks.throughFirst_prefix
    have cut : headerBlock stream = (front ++ [0x0D, 0x0A, 0x0D]) ++ [0x0A] := by
      rw [← block, List.append_assoc]
      rfl
    by_contra valid
    rw [← buffer, cut, List.append_assoc, List.singleton_append] at valid
    have kept := isSome_fromUtf8_front (by decide) (Option.isSome_iff_ne_none.mpr valid)
    rw [← cut, invalid] at kept
    exact absurd kept (by simp)

/-- What is read is what the stream begins with, unless a bodyless request shares a chunk. -/
theorem readHttpRequest_eq_iff (delivers : Chunks.Delivers chunkBytes chunks stream)
    (fits : Fits stream) :
    readHttpRequest (chunks.map .ok : Reads E) = framedRequest stream ↔
      (parseContentLength (headerBlock stream)).isSome ∨
        fromUtf8 (headerBlock stream) = none ∨ EndsWithChunk stream chunks := by
  cases declared : parseContentLength (headerBlock stream) with
  | some contentLength =>
    have read := readHttpRequest_of_some (E := E) delivers fits (by rw [declared]; rfl)
    exact ⟨fun _ => .inl rfl, fun _ => read⟩
  | none =>
    rw [readHttpRequest_of_none delivers fits declared, framedRequest, framed_of_none declared,
      ← headersBuffer_eq_iff delivers.flatten]
    by_cases same : headersBuffer chunks = headerBlock stream
    · rw [same]
      exact ⟨fun _ => .inr (.inr rfl), fun _ => rfl⟩
    · cases valid : fromUtf8 (headerBlock stream) with
      | none =>
        rw [fromUtf8_headersBuffer_of_none delivers.flatten same valid]
        exact ⟨fun _ => .inr (.inl rfl), fun _ => rfl⟩
      | some request =>
        -- A text tells its bytes, and the buffer holds others.
        have apart : fromUtf8 (headersBuffer chunks) ≠ some request := by
          intro spelled
          rw [fromUtf8_eq_some] at spelled valid
          exact same (spelled.trans valid.symm)
        simp only [Option.isSome_none, Bool.false_eq_true, reduceCtorEq, same, or_self, iff_false]
        cases read : fromUtf8 (headersBuffer chunks) with
        | none => simp
        | some other =>
          intro equal
          injection equal with equal
          rw [equal] at read
          exact apart read

end Delivered

/-- A stream that goes on after its headers can deliver some of it in one chunk with their end. -/
theorem exists_not_endsWithChunk {stream : Bytes} (more : remaining stream ≠ []) :
    ∃ chunks, Chunks.Delivers chunkBytes chunks stream ∧ ¬EndsWithChunk stream chunks := by
  have before : (headerBlock stream).length < stream.length := by
    have left := List.length_pos_of_ne_nil more
    rw [remaining, List.length_drop] at left
    omega
  have after : 0 < (headerBlock stream).length := by
    cases found : Chunks.firstEnd headerTerminator stream with
    | none =>
      rw [headerBlock, Chunks.throughFirst_of_none found] at before
      exact absurd before (Nat.lt_irrefl _)
    | some stop =>
      have ends := (Chunks.firstEnd_eq_some.mp found).2.1
      rw [← Chunks.throughFirst_of_some found, ← headerBlock] at ends
      exact Nat.lt_of_lt_of_le (by decide) ends.length_le
  obtain ⟨chunks, delivers, across⟩ :=
    Chunks.exists_delivers_across (show 2 ≤ chunkBytes by decide) after before
  exact ⟨chunks, delivers, fun ⟨count, ends⟩ => across count (by rw [ends])⟩

/-- The request read from a stream, delivery by delivery, and over all of them. -/
theorem readHttpRequest_framing (stream : Bytes) (fits : Fits stream) :
    (∀ chunks, Chunks.Delivers chunkBytes chunks stream →
      (readHttpRequest (chunks.map .ok : Reads E) = framedRequest stream ↔
        (parseContentLength (headerBlock stream)).isSome ∨
          fromUtf8 (headerBlock stream) = none ∨ EndsWithChunk stream chunks)) ∧
    ((∀ chunks, Chunks.Delivers chunkBytes chunks stream →
      readHttpRequest (chunks.map .ok : Reads E) = framedRequest stream) ↔
        (parseContentLength (headerBlock stream)).isSome ∨
          fromUtf8 (headerBlock stream) = none ∨ remaining stream = []) := by
  refine ⟨fun chunks delivers => readHttpRequest_eq_iff delivers fits, ?_, ?_⟩
  · intro always
    by_contra neither
    rw [not_or, not_or] at neither
    obtain ⟨chunks, delivers, across⟩ := exists_not_endsWithChunk neither.2.2
    obtain declared | invalid | ends :=
      (readHttpRequest_eq_iff delivers fits).mp (always chunks delivers)
    · exact neither.1 declared
    · exact neither.2.1 invalid
    · exact across ends
  · intro condition chunks delivers
    refine (readHttpRequest_eq_iff delivers fits).mpr
      (condition.imp_right fun rest => rest.imp_right fun nothing => ?_)
    -- The headers are all of the stream, so they end with its last chunk.
    have all : headerBlock stream = stream := by
      rw [headerBlock_eq_take, List.take_of_length_le (List.drop_eq_nil_iff.mp nothing)]
    exact ⟨chunks.length, by rw [List.take_length, delivers.flatten, all]⟩

/-- A query with a body of two bytes. -/
def queryHead : String := "POST /v1/query HTTP/1.1\r\ncontent-length: 2\r\n\r\n"

/-- The query, and the first bytes of another request behind it. -/
def queryStream : Bytes := utf8Bytes queryHead ++ utf8Bytes "[]GET"

theorem headerBlock_queryStream : headerBlock queryStream = utf8Bytes queryHead := by decide

theorem parseContentLength_queryStream :
    parseContentLength (headerBlock queryStream) = some 2 := by
  rw [headerBlock_queryStream, parseContentLength, fromUtf8_utf8Bytes]
  decide

/-- However the query arrives, it is read with its two bytes of body. -/
theorem readHttpRequest_queryStream :
    Fits queryStream ∧ ∀ chunks, Chunks.Delivers chunkBytes chunks queryStream →
      readHttpRequest (chunks.map .ok : Reads Unit) = framedRequest queryStream := by
  have fits : Fits queryStream := by
    refine ⟨by rw [headerBlock_queryStream]; decide, fun contentLength declared => ?_⟩
    rw [parseContentLength_queryStream] at declared
    cases declared
    rw [headerBlock_queryStream]
    decide
  have declares : (parseContentLength (headerBlock queryStream)).isSome := by
    rw [parseContentLength_queryStream]
    rfl
  exact ⟨fits, (readHttpRequest_framing queryStream fits).2.mpr (.inl declares)⟩

/-- A request without a body. -/
def statusHead : String := "GET /v1/status HTTP/1.1\r\n\r\n"

/-- The request, and a byte behind it. -/
def statusStream : Bytes := utf8Bytes statusHead ++ utf8Bytes "X"

theorem headerBlock_statusStream : headerBlock statusStream = utf8Bytes statusHead := by decide

theorem parseContentLength_statusStream :
    parseContentLength (headerBlock statusStream) = none := by
  rw [headerBlock_statusStream, parseContentLength, fromUtf8_utf8Bytes]
  decide

/-- Not every fitting stream is read as its headers and its declared body, however it arrives. -/
theorem not_forall_readHttpRequest_eq :
    ¬∀ stream, Fits stream → ∀ chunks, Chunks.Delivers chunkBytes chunks stream →
      readHttpRequest (chunks.map .ok : Reads Unit) = framedRequest stream := by
  intro always
  have fits : Fits statusStream := by
    refine ⟨by rw [headerBlock_statusStream]; decide, fun contentLength declared => ?_⟩
    rw [parseContentLength_statusStream] at declared
    exact absurd declared (by simp)
  -- All of the stream arrives in one chunk.
  have delivers : Chunks.Delivers chunkBytes [statusStream] statusStream :=
    ⟨by decide, by decide, by decide⟩
  have buffer : headersBuffer [statusStream] = utf8Bytes (statusHead ++ "X") := by decide
  have read := always statusStream fits [statusStream] delivers
  rw [readHttpRequest_of_none delivers fits parseContentLength_statusStream, buffer,
    framedRequest, framed_of_none parseContentLength_statusStream, headerBlock_statusStream,
    fromUtf8_utf8Bytes, fromUtf8_utf8Bytes] at read
  exact absurd read (by decide)

end Oxgraph.Daemon
