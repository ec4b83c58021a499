import StonePlus.FrameGuard.Json
import StonePlus.FrameGuard.Sse

/-!
# StonePlus.FrameGuard.Agreement

`ProtocolStreamFrameGuard` over whole streams, however they are cut into chunks.

The guard a stream is given to reads it as one chunk (`run_gemini`), unless the bytes in front of
the one that decides the framing are too many by themselves: the guard sees that only at the end
of a chunk.  `agrees_iff` tells on which streams the guard agrees with the framers.
-/

namespace StonePlus.FrameGuard

/-- The framing the guard chooses for a stream; of a stream that does not decide it, only the
white space is counted. -/
def streamFraming (protocol : Protocol) (stream : Bytes) : Framing :=
  if protocol = .gemini then
    ((stream.find? fun byte => !isJsonPrefixByte byte).map
      ProtocolStreamFrameGuard.framingOf).getD .json
  else .sse

/-- The bytes in front of the one that decides the framing. -/
def prefixLength (stream : Bytes) : Nat := (stream.takeWhile isJsonPrefixByte).length

/-- One of the two guards reads a stream without throwing. -/
def Accepts (limits : Limits) : Framing → Bytes → Prop
  | .sse, stream => ∃ g, DelimitedStreamFrameGuard.push limits {} stream = .ok g
  | .json, stream => JsonStreamFrameGuard.Accepts limits {} stream

variable {limits : Limits} {stream : Bytes}

namespace ProtocolStreamFrameGuard

/-- The guard throws on some chunk. -/
def Throws (limits : Limits) (protocol : Protocol) (chunks : List Bytes) : Prop :=
  ∃ e, run limits protocol chunks = .error e

theorem not_throws : ¬ Throws limits protocol chunks ↔ ∃ g, run limits protocol chunks = .ok g := by
  unfold Throws
  cases run limits protocol chunks <;> simp

/-! ## Chunks -/

theorem pushTarget_append (g : ProtocolStreamFrameGuard) (target : Framing) (a b : Bytes) :
    g.pushTarget limits target (a ++ b) =
      g.pushTarget limits target a >>= fun g => g.pushTarget limits target b := by
  cases target with
  | sse =>
      simp only [pushTarget, DelimitedStreamFrameGuard.push, List.foldlM_append]
      cases List.foldlM (DelimitedStreamFrameGuard.pushByte limits) g.sse a <;> rfl
  | json =>
      simp only [pushTarget, JsonStreamFrameGuard.push, List.foldlM_append]
      cases List.foldlM (JsonStreamFrameGuard.pushByte limits) g.json a <;> rfl

theorem pushTarget_nil (g : ProtocolStreamFrameGuard) (target : Framing) :
    g.pushTarget limits target [] = .ok g := by
  cases target <;> rfl

/-- Chunks are pushed into one of the guards as one. -/
theorem foldlM_pushTarget (g : ProtocolStreamFrameGuard) (target : Framing)
    (chunks : List Bytes) :
    chunks.foldlM (fun g chunk => g.pushTarget limits target chunk) g =
      g.pushTarget limits target chunks.flatten := by
  induction chunks generalizing g with
  | nil => rw [List.flatten_nil, pushTarget_nil]; rfl
  | cons chunk chunks ih =>
      rw [List.foldlM_cons, List.flatten_cons, pushTarget_append]
      exact congrArg _ (funext ih)

theorem framing_pushTarget {g : ProtocolStreamFrameGuard}
    (h : g.pushTarget limits target chunk = .ok g') : g'.framing = g.framing := by
  cases target <;>
  · obtain ⟨_, -, hg'⟩ := Lib.bind_eq_ok.mp h
    cases hg'
    rfl

/-- A guard whose framing is decided pushes every chunk into the same guard. -/
theorem foldlM_push {g : ProtocolStreamFrameGuard} {target : Framing}
    (hg : g.framing = some target) (chunks : List Bytes) :
    chunks.foldlM (push limits) g = g.pushTarget limits target chunks.flatten := by
  rw [← foldlM_pushTarget]
  induction chunks generalizing g with
  | nil => rfl
  | cons chunk chunks ih =>
      rw [List.foldlM_cons, List.foldlM_cons]
      have hpush : g.push limits chunk = g.pushTarget limits target chunk := by
        rw [push, hg]
      rw [hpush]
      cases h : g.pushTarget limits target chunk with
      | error e => rfl
      | ok g' => exact ih ((framing_pushTarget h).trans hg)

/-- Only the chosen guard matters. -/
theorem pushTarget_isOk {g : ProtocolStreamFrameGuard} (hsse : g.sse = {}) (hjson : g.json = {})
    (target : Framing) (bytes : Bytes) :
    (∃ g', g.pushTarget limits target bytes = .ok g') ↔ Accepts limits target bytes := by
  cases target with
  | sse =>
      simp only [pushTarget, hsse, Accepts]
      cases DelimitedStreamFrameGuard.push limits {} bytes <;> simp [bind, Except.bind, pure, Except.pure]
  | json =>
      simp only [pushTarget, hjson, Accepts, JsonStreamFrameGuard.Accepts]
      cases JsonStreamFrameGuard.push limits {} bytes <;> simp [bind, Except.bind, pure, Except.pure]

/-- What is pending does not matter to the two guards. -/
theorem pushTarget_clear (g : ProtocolStreamFrameGuard) (target : Framing) (bytes : Bytes) :
    (∃ g', { g with pending := [], pendingBytes := 0 }.pushTarget limits target bytes = .ok g') ↔
      ∃ g', g.pushTarget limits target bytes = .ok g' := by
  cases target with
  | sse =>
      simp only [pushTarget]
      cases g.sse.push limits bytes <;> simp [bind, Except.bind, pure, Except.pure]
  | json =>
      simp only [pushTarget]
      cases g.json.push limits bytes <;> simp [bind, Except.bind, pure, Except.pure]

/-! ## Before the framing is decided -/

/-- The guard after chunks that do not decide the framing. -/
def undecided (pending : List Bytes) : ProtocolStreamFrameGuard :=
  { framing := none, pending, pendingBytes := pending.flatten.length }

theorem push_undecided {pending : List Bytes}
    (h : chunk.find? (fun byte => !isJsonPrefixByte byte) = none) :
    (undecided pending).push limits chunk =
      if limits.maxFrameBytes < (pending ++ [chunk]).flatten.length then .error limits.fail
      else .ok (undecided (pending ++ [chunk])) := by
  have hbytes : pending.flatten.length + chunk.length = (pending ++ [chunk]).flatten.length := by
    simp
  simp only [push, undecided, h, hbytes]

/-- The chunk that decides the framing is pushed with all that is pending. -/
theorem foldlM_push_deciding {pending : List Bytes} {chunk : Bytes} {byte : UInt8}
    (h : chunk.find? (fun byte => !isJsonPrefixByte byte) = some byte) (chunks : List Bytes) :
    (∃ g, (chunk :: chunks).foldlM (push limits) (undecided pending) = .ok g) ↔
      Accepts limits (framingOf byte) ((pending ++ chunk :: chunks).flatten) := by
  let g : ProtocolStreamFrameGuard :=
    { framing := some (framingOf byte), pending := pending ++ [chunk],
      pendingBytes := pending.flatten.length + chunk.length }
  have hpush : (undecided pending).push limits chunk =
      g.pushTarget limits (framingOf byte) (pending ++ [chunk]).flatten >>= fun g' =>
        .ok { g' with pending := [], pendingBytes := 0 } := by
    rw [← foldlM_pushTarget]
    simp only [push, undecided, h]
    rfl
  have hall : (pending ++ chunk :: chunks).flatten =
      (pending ++ [chunk]).flatten ++ chunks.flatten := by simp
  rw [List.foldlM_cons, hpush, hall, ← pushTarget_isOk (g := g) rfl rfl, pushTarget_append]
  cases hfirst : g.pushTarget limits (framingOf byte) (pending ++ [chunk]).flatten with
  | error e => exact iff_of_false (fun ⟨_, h⟩ => by cases h) (fun ⟨_, h⟩ => by cases h)
  | ok g' =>
      have hg' : { g' with pending := [], pendingBytes := 0 }.framing = some (framingOf byte) :=
        framing_pushTarget hfirst
      show (∃ r, chunks.foldlM (push limits) _ = .ok r) ↔ _
      rw [foldlM_push hg']
      exact pushTarget_clear g' (framingOf byte) chunks.flatten

theorem find?_append_none {b : Bytes} (h : a.find? (fun byte => !isJsonPrefixByte byte) = none) :
    (a ++ b).find? (fun byte => !isJsonPrefixByte byte) =
      b.find? fun byte => !isJsonPrefixByte byte := by
  rw [List.find?_append, h, Option.none_or]

theorem isPrefix_of_find? {a : Bytes} (h : a.find? (fun byte => !isJsonPrefixByte byte) = none) :
    ∀ byte ∈ a, isJsonPrefixByte byte = true := by
  simpa using h

theorem length_le_prefixLength {a : Bytes} (b : Bytes)
    (h : a.find? (fun byte => !isJsonPrefixByte byte) = none) :
    a.length ≤ prefixLength (a ++ b) := by
  unfold prefixLength
  rw [List.takeWhile_append_of_pos (isPrefix_of_find? h), List.length_append]
  omega

/-- A stream that does not decide the framing is a gap. -/
theorem accepts_undecided (h : stream.find? (fun byte => !isJsonPrefixByte byte) = none)
    (hfits : stream.length ≤ limits.maxFrameBytes) :
    Accepts limits (streamFraming .gemini stream) stream := by
  have hall := isPrefix_of_find? h
  rw [streamFraming, if_pos rfl, h]
  refine JsonStreamFrameGuard.accepts_blank stream |>.mpr ?_
  rw [List.takeWhile_eq_self_iff.mpr hall, List.dropWhile_eq_nil_iff.mpr hall]
  exact ⟨hfits, JsonStreamFrameGuard.accepts_nil⟩

/-- **Chunks**: what the guard reads in some chunks it reads as one, and if the bytes in front of
the deciding one are few, it reads the same in all chunks. -/
theorem foldlM_push_undecided {pending : List Bytes} {chunks : List Bytes}
    (hpending : pending.flatten.find? (fun byte => !isJsonPrefixByte byte) = none)
    (hfits : pending.flatten.length ≤ limits.maxFrameBytes) :
    ((∃ g, chunks.foldlM (push limits) (undecided pending) = .ok g) →
        Accepts limits (streamFraming .gemini (pending ++ chunks).flatten)
          (pending ++ chunks).flatten) ∧
      (prefixLength (pending ++ chunks).flatten ≤ limits.maxFrameBytes →
        Accepts limits (streamFraming .gemini (pending ++ chunks).flatten)
          (pending ++ chunks).flatten →
        ∃ g, chunks.foldlM (push limits) (undecided pending) = .ok g) := by
  induction chunks generalizing pending with
  | nil =>
      rw [List.append_nil]
      exact ⟨fun _ => accepts_undecided hpending hfits, fun _ _ => ⟨_, rfl⟩⟩
  | cons chunk chunks ih =>
      have hall : (pending ++ chunk :: chunks).flatten =
          (pending ++ [chunk] ++ chunks).flatten := by simp
      cases hchunk : chunk.find? fun byte => !isJsonPrefixByte byte with
      | none =>
          have hmore : (pending ++ [chunk]).flatten.find? (fun byte => !isJsonPrefixByte byte) =
              none := by
            rw [List.flatten_append, find?_append_none hpending, List.flatten_singleton, hchunk]
          rw [List.foldlM_cons, push_undecided hchunk, hall]
          by_cases hover : limits.maxFrameBytes < (pending ++ [chunk]).flatten.length
          · rw [if_pos hover]
            refine ⟨fun ⟨_, h⟩ => (by cases h), fun hfront => ?_⟩
            have := length_le_prefixLength chunks.flatten hmore
            rw [List.flatten_append] at hfront
            omega
          · rw [if_neg hover]
            exact ih hmore (by omega)
      | some byte =>
          have hbyte : streamFraming .gemini (pending ++ chunk :: chunks).flatten =
              framingOf byte := by
            rw [streamFraming, if_pos rfl, List.flatten_append, find?_append_none hpending,
              List.flatten_cons, List.find?_append, hchunk]
            rfl
          rw [foldlM_push_deciding hchunk, hbyte]
          exact ⟨id, fun _ => id⟩

theorem new_gemini : new .gemini = undecided [] := rfl

/-- A chunk of white space alone is rejected when it is too long. -/
theorem throws_of_long (h : limits.maxFrameBytes < prefixLength stream) :
    Throws limits .gemini
      [stream.takeWhile isJsonPrefixByte, stream.dropWhile isJsonPrefixByte] := by
  have hfront : (stream.takeWhile isJsonPrefixByte).find?
      (fun byte => !isJsonPrefixByte byte) = none := by
    simpa using fun _ hmem => List.mem_takeWhile_imp hmem
  refine ⟨limits.fail, ?_⟩
  unfold prefixLength at h
  rw [run, new_gemini, List.foldlM_cons, push_undecided hfront, List.nil_append,
    List.flatten_singleton, if_pos h]
  rfl

theorem run_of_ne_gemini {protocol : Protocol} (h : protocol ≠ .gemini) (chunks : List Bytes) :
    (∃ g, run limits protocol chunks = .ok g) ↔ Accepts limits .sse chunks.flatten := by
  rw [run, @foldlM_push _ _ .sse (by simp [new, h])]
  exact pushTarget_isOk rfl rfl _ _

/-- What is read in some chunks is read as one. -/
theorem accepts_of_run (h : ¬ Throws limits protocol chunks) :
    Accepts limits (streamFraming protocol chunks.flatten) chunks.flatten := by
  rw [not_throws] at h
  by_cases hgemini : protocol = .gemini
  · subst hgemini
    exact (@foldlM_push_undecided limits [] chunks rfl (Nat.zero_le _)).1 h
  · rw [streamFraming, if_neg hgemini]
    exact (run_of_ne_gemini hgemini chunks).mp h

theorem run_of_accepts
    (hfront : protocol = .gemini → prefixLength chunks.flatten ≤ limits.maxFrameBytes)
    (h : Accepts limits (streamFraming protocol chunks.flatten) chunks.flatten) :
    ¬ Throws limits protocol chunks := by
  rw [not_throws]
  by_cases hgemini : protocol = .gemini
  · subst hgemini
    exact (@foldlM_push_undecided limits [] chunks rfl (Nat.zero_le _)).2 (hfront rfl) h
  · rw [streamFraming, if_neg hgemini] at h
    exact (run_of_ne_gemini hgemini chunks).mpr h

/-- One chunk that decides the framing is read as the chosen guard reads it. -/
theorem run_single (h : stream.find? (fun byte => !isJsonPrefixByte byte) = some byte) :
    (∃ g, run limits .gemini [stream] = .ok g) ↔ Accepts limits (framingOf byte) stream := by
  have := @foldlM_push_deciding limits [] stream byte h []
  rwa [List.nil_append, List.flatten_singleton] at this

end ProtocolStreamFrameGuard

/-! ## The two guards -/

open ProtocolStreamFrameGuard

theorem accepts_sse : Accepts limits .sse stream ↔ FramesWithin limits.maxFrameBytes stream := by
  rcases DelimitedStreamFrameGuard.push_eq limits stream with
    ⟨g, hpush, -, hwithin⟩ | ⟨hpush, hwithin⟩
  · exact iff_of_true ⟨g, hpush⟩ hwithin
  · refine iff_of_false ?_ hwithin
    rintro ⟨g, hg⟩
    rw [hpush] at hg
    cases hg

/-- The guard has not counted more than the limit. -/
theorem DelimitedStreamFrameGuard.frameBytes_le {g : DelimitedStreamFrameGuard}
    (hg : g.frameBytes ≤ limits.maxFrameBytes) (h : g.push limits chunk = .ok g') :
    g'.frameBytes ≤ limits.maxFrameBytes := by
  induction chunk generalizing g with
  | nil =>
      cases h
      exact hg
  | cons byte rest ih =>
      obtain ⟨g₁, hbyte, hrest⟩ := Lib.bind_eq_ok.mp h
      refine ih ?_ hrest
      unfold DelimitedStreamFrameGuard.pushByte at hbyte
      split_ifs at hbyte with hdelimits hover
      · cases hbyte
        exact Nat.zero_le _
      · cases hbyte
        show g.frameBytes + 1 ≤ limits.maxFrameBytes
        omega

theorem openBlock_le_limit (h : Accepts limits .sse stream) :
    openBlock stream ≤ limits.maxFrameBytes := by
  obtain ⟨g, hpush⟩ := h
  exact (openBlock_le hpush).trans
    (DelimitedStreamFrameGuard.frameBytes_le (Nat.zero_le _) hpush)

/-- The first byte of the framing is known. -/
theorem find?_of_streamFraming_sse (h : streamFraming .gemini stream = .sse) :
    ∃ byte, stream.find? (fun byte => !isJsonPrefixByte byte) = some byte ∧
      framingOf byte = .sse := by
  rw [streamFraming, if_pos rfl] at h
  cases hbyte : stream.find? fun byte => !isJsonPrefixByte byte with
  | none =>
      rw [hbyte] at h
      cases h
  | some byte =>
      rw [hbyte] at h
      exact ⟨byte, rfl, h⟩

theorem isJson_of_streamFraming (h : streamFraming protocol stream = .json) :
    protocol = .gemini ∧ IsJson stream := by
  unfold streamFraming at h
  split_ifs at h with hgemini
  refine ⟨hgemini, fun first rest hrest => ?_⟩
  rw [List.find?_not_eq_head?_dropWhile, hrest, List.head?_cons, Option.map_some,
    Option.getD_some, framingOf] at h
  split_ifs at h with hfirst
  simpa using hfirst

theorem streamFraming_of_isJson (h : IsJson stream) : streamFraming .gemini stream = .json := by
  rw [streamFraming, if_pos rfl, List.find?_not_eq_head?_dropWhile]
  cases hrest : stream.dropWhile isJsonPrefixByte with
  | nil => rfl
  | cons first rest =>
      rcases h first rest hrest with rfl | rfl <;> rfl

theorem startsValue_of_prefix {read : Bytes} (hfront : read <+: stream)
    (h : startsValue read = true) : startsValue stream = true := by
  obtain ⟨more, rfl⟩ := hfront
  unfold startsValue at h
  split at h
  · rfl
  · exact h
  · cases h

theorem isJson_of_startsValue (h : startsValue stream = true) : IsJson stream := by
  intro first rest hrest
  unfold startsValue at h
  split at h
  · cases hrest
    exact .inl rfl
  · cases hrest
    exact .inr rfl
  · cases h

/-! ## Agreement -/

/-- The bytes of the block or value that is unfinished behind what was read. -/
def unfinishedBytes (protocol : Protocol) (read : Bytes) : Nat :=
  match streamFraming protocol read with
  | .sse => openBlock read
  | .json => (jsonPieces read).unfinished.length

/-- Every block, respectively every value and the white space between values, is small enough. -/
def Small (maxFrameBytes : Nat) (protocol : Protocol) (stream : Bytes) : Prop :=
  match streamFraming protocol stream with
  | .sse => BlocksWithin maxFrameBytes stream
  | .json => (jsonPieces stream).Within maxFrameBytes

/-- The guard agrees with the framers on a stream. -/
structure Agrees (limits : Limits) (protocol : Protocol) (stream : Bytes) : Prop where
  chunking : ∀ chunks chunks' : List Bytes, chunks.flatten = stream → chunks'.flatten = stream →
    (Throws limits protocol chunks ↔ Throws limits protocol chunks')
  small : Small limits.maxFrameBytes protocol stream →
    ∀ chunks : List Bytes, chunks.flatten = stream → ¬ Throws limits protocol chunks
  unfinished : ∀ read, read <+: stream → ∀ chunks : List Bytes, chunks.flatten = read →
    ¬ Throws limits protocol chunks → unfinishedBytes protocol read ≤ limits.maxFrameBytes

/-- Where it does: small blocks are never many bytes without LF LF or CR LF CR LF, and no long
white space stands in front of a Gemini stream of events; small values are never far apart with
their commas, and a limit of 0 meets no value at the front. -/
def AgreesWhen (maxFrameBytes : Nat) (protocol : Protocol) (stream : Bytes) : Prop :=
  match streamFraming protocol stream with
  | .sse =>
    (BlocksWithin maxFrameBytes stream → FramesWithin maxFrameBytes stream) ∧
      (protocol = .gemini →
        prefixLength stream ≤ maxFrameBytes ∨ ¬ FramesWithin maxFrameBytes stream)
  | .json =>
    ((jsonPieces stream).Within maxFrameBytes → (jsonPieces stream).GapsWithin maxFrameBytes) ∧
      (maxFrameBytes = 0 → startsValue stream = false)

theorem unfinishedBytes_le
    (hstart : streamFraming protocol chunks.flatten = .json → limits.maxFrameBytes = 0 →
      startsValue chunks.flatten = false) (h : ¬ Throws limits protocol chunks) :
    unfinishedBytes protocol chunks.flatten ≤ limits.maxFrameBytes := by
  have haccepts := accepts_of_run h
  unfold unfinishedBytes
  cases hframing : streamFraming protocol chunks.flatten with
  | sse =>
      rw [hframing] at haccepts
      exact openBlock_le_limit haccepts
  | json =>
      rw [hframing] at haccepts
      have hjson := (isJson_of_streamFraming hframing).2
      have hle := length_unfinished hjson haccepts
      by_cases hzero : limits.maxFrameBytes = 0
      · show (jsonPieces chunks.flatten).unfinished.length ≤ _
        rw [unfinished_eq_nil hjson haccepts hzero (hstart hframing hzero)]
        exact Nat.zero_le _
      · show (jsonPieces chunks.flatten).unfinished.length ≤ _
        omega

/-- Where a stream of events is read as one chunk, in all chunks or in none. -/
theorem throws_iff_of_sse (hframing : streamFraming protocol stream = .sse)
    (hfront : protocol = .gemini →
      prefixLength stream ≤ limits.maxFrameBytes ∨ ¬ FramesWithin limits.maxFrameBytes stream)
    (hchunks : chunks.flatten = stream) :
    Throws limits protocol chunks ↔ ¬ FramesWithin limits.maxFrameBytes stream := by
  subst hchunks
  constructor
  · intro hthrows hwithin
    refine run_of_accepts (fun hgemini => ?_) ?_ hthrows
    · exact (hfront hgemini).resolve_right fun h => h hwithin
    · rw [hframing]
      exact accepts_sse.mpr hwithin
  · intro hwithin
    by_contra hthrows
    have haccepts := accepts_of_run hthrows
    rw [hframing] at haccepts
    exact hwithin (accepts_sse.mp haccepts)

theorem throws_iff_of_json (hframing : streamFraming protocol stream = .json)
    (hchunks : chunks.flatten = stream) :
    Throws limits protocol chunks ↔ ¬ Accepts limits .json stream := by
  subst hchunks
  constructor
  · intro hthrows haccepts
    refine run_of_accepts (fun _ => ?_) (by rwa [hframing]) hthrows
    exact (JsonStreamFrameGuard.accepts_blank _ |>.mp haccepts).1
  · intro haccepts
    by_contra hthrows
    have := accepts_of_run hthrows
    rw [hframing] at this
    exact haccepts this

theorem Agrees.sse (h : Agrees limits protocol stream)
    (hframing : streamFraming protocol stream = .sse) :
    (BlocksWithin limits.maxFrameBytes stream → FramesWithin limits.maxFrameBytes stream) ∧
      (protocol = .gemini → prefixLength stream ≤ limits.maxFrameBytes ∨
        ¬ FramesWithin limits.maxFrameBytes stream) := by
  have hsingle : [stream].flatten = stream := List.flatten_singleton
  refine ⟨fun hblocks => ?_, ?_⟩
  · have hsmall : Small limits.maxFrameBytes protocol stream := by
      rw [Small, hframing]
      exact hblocks
    have haccepts := accepts_of_run (h.small hsmall [stream] hsingle)
    rw [hsingle, hframing] at haccepts
    exact accepts_sse.mp haccepts
  · rintro rfl
    by_contra hboth
    obtain ⟨hlong, hwithin⟩ := not_or.mp hboth
    obtain ⟨byte, hbyte, hsse⟩ := find?_of_streamFraming_sse hframing
    have hcut := @throws_of_long limits _ (Nat.lt_of_not_le hlong)
    refine not_throws.mpr ?_ ((h.chunking _ [stream] (by simp) hsingle).mp hcut)
    rw [run_single hbyte, hsse]
    exact accepts_sse.mpr (not_not.mp hwithin)

theorem Agrees.json (h : Agrees limits protocol stream)
    (hframing : streamFraming protocol stream = .json) :
    ((jsonPieces stream).Within limits.maxFrameBytes →
        (jsonPieces stream).GapsWithin limits.maxFrameBytes) ∧
      (limits.maxFrameBytes = 0 → startsValue stream = false) := by
  have hsingle : [stream].flatten = stream := List.flatten_singleton
  obtain ⟨rfl, hjson⟩ := isJson_of_streamFraming hframing
  refine ⟨fun hvalues => ?_, fun hzero => ?_⟩
  · have hsmall : Small limits.maxFrameBytes .gemini stream := by
      rw [Small, hframing]
      exact hvalues
    have haccepts := accepts_of_run (h.small hsmall [stream] hsingle)
    rw [hsingle, hframing] at haccepts
    exact (accepts_iff_gaps hjson hvalues).mp haccepts
  · by_contra hstart
    obtain ⟨read, hfront, hread, haccepts, hlength⟩ :=
      @accepts_first limits _ (by simpa using hstart)
    have hflatten : [read].flatten = read := List.flatten_singleton
    have hnot : ¬ Throws limits .gemini [read] := by
      rw [throws_iff_of_json (streamFraming_of_isJson hread) hflatten]
      exact not_not.mpr haccepts
    have hle := h.unfinished read hfront [read] hflatten hnot
    rw [unfinishedBytes, streamFraming_of_isJson hread] at hle
    have hle : (jsonPieces read).unfinished.length ≤ limits.maxFrameBytes := hle
    omega

theorem agrees_of_sse {protocol : Protocol} (hframing : streamFraming protocol stream = .sse)
    (hblocks : BlocksWithin limits.maxFrameBytes stream →
      FramesWithin limits.maxFrameBytes stream)
    (hfront : protocol = .gemini →
      prefixLength stream ≤ limits.maxFrameBytes ∨ ¬ FramesWithin limits.maxFrameBytes stream) :
    Agrees limits protocol stream where
  chunking chunks chunks' hchunks hchunks' := by
    rw [throws_iff_of_sse hframing hfront hchunks, throws_iff_of_sse hframing hfront hchunks']
  small hsmall chunks hchunks := by
    rw [Small, hframing] at hsmall
    rw [throws_iff_of_sse hframing hfront hchunks]
    exact not_not.mpr (hblocks hsmall)
  unfinished read hread chunks hchunks hnot := by
    subst hchunks
    refine unfinishedBytes_le (fun hjson _ => ?_) hnot
    by_contra hstart
    have hstream := startsValue_of_prefix hread (by simpa using hstart)
    rw [(isJson_of_streamFraming hjson).1,
      streamFraming_of_isJson (isJson_of_startsValue hstream)] at hframing
    cases hframing

theorem agrees_of_json {protocol : Protocol} (hframing : streamFraming protocol stream = .json)
    (hgaps : (jsonPieces stream).Within limits.maxFrameBytes →
      (jsonPieces stream).GapsWithin limits.maxFrameBytes)
    (hstart : limits.maxFrameBytes = 0 → startsValue stream = false) :
    Agrees limits protocol stream where
  chunking chunks chunks' hchunks hchunks' := by
    rw [throws_iff_of_json hframing hchunks, throws_iff_of_json hframing hchunks']
  small hsmall chunks hchunks := by
    rw [Small, hframing] at hsmall
    rw [throws_iff_of_json hframing hchunks]
    exact not_not.mpr
      ((accepts_iff_gaps (isJson_of_streamFraming hframing).2 hsmall).mpr (hgaps hsmall))
  unfinished read hread chunks hchunks hnot := by
    subst hchunks
    refine unfinishedBytes_le (fun _ hzero => ?_) hnot
    by_contra hfirst
    have hstream := startsValue_of_prefix hread (by simpa using hfirst)
    rw [hstart hzero] at hstream
    cases hstream

/-- **Agreement**: the guard agrees with the framers exactly on the streams of `AgreesWhen`. -/
theorem agrees_iff (limits : Limits) (protocol : Protocol) (stream : Bytes) :
    Agrees limits protocol stream ↔ AgreesWhen limits.maxFrameBytes protocol stream := by
  unfold AgreesWhen
  cases hframing : streamFraming protocol stream with
  | sse => exact ⟨fun h => h.sse hframing, fun h => agrees_of_sse hframing h.1 h.2⟩
  | json => exact ⟨fun h => h.json hframing, fun h => agrees_of_json hframing h.1 h.2⟩

/-- Two events whose lines end with CR: each block has ten bytes, and with a limit of 16 the
guard throws inside the second one. -/
theorem cr_blocks_throw :
    ¬ (∀ (limits : Limits) (protocol : Protocol) (stream : Bytes),
      Agrees limits protocol stream) := by
  intro h
  let event : Bytes := [0x64, 0x61, 0x74, 0x61, 0x3A, 0x20, 0x7B, 0x7D, 0x0D, 0x0D]
  have hagrees := h { maxFrameBytes := 16 } .anthropicMessages (event ++ event)
  have hblocks : sseBlocks (event ++ event) = [10, 10, 0] := by decide
  have hsmall : Small 16 .anthropicMessages (event ++ event) := by
    show ∀ length ∈ sseBlocks (event ++ event), length ≤ 16
    rw [hblocks]
    decide
  have hthrows : run { maxFrameBytes := 16 } .anthropicMessages [event ++ event] =
      .error (Limits.fail { maxFrameBytes := 16 }) := rfl
  exact hagrees.small hsmall [event ++ event] List.flatten_singleton ⟨_, hthrows⟩

end StonePlus.FrameGuard
