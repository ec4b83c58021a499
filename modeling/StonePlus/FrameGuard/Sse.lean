import StonePlus.FrameGuard.Guards
import StonePlus.Lib.Except
import StonePlus.Streaming.Sse
import Mathlib.Data.List.Induction

/-!
# StonePlus.FrameGuard.Sse

What the guard of server-sent events counts, against the blocks `SseFramer` reads.

The guard throws where more than `maxFrameBytes` consecutive bytes do not contain the end of
LF LF or CR LF CR LF (`push_isOk_iff`).  A block ends with an empty line, whose ends may be mixed,
so the guard never counts less than the unfinished block (`openBlock_le`), but sometimes more.
-/

namespace StonePlus.FrameGuard

/-! ## Blocks -/

/-- The lengths of the blocks of a stream in bytes, from a place where so many bytes of a block
have been read.  The last block is unfinished and may be empty. -/
def blockLengths (length : Nat) (lineEmpty : Bool) : Bytes → List Nat
  | [] => [length]
  | 0x0A :: rest =>
    if lineEmpty then (length + 1) :: blockLengths 0 true rest
    else blockLengths (length + 1) true rest
  | 0x0D :: 0x0A :: rest =>
    if lineEmpty then (length + 2) :: blockLengths 0 true rest
    else blockLengths (length + 2) true rest
  | 0x0D :: rest =>
    if lineEmpty then (length + 1) :: blockLengths 0 true rest
    else blockLengths (length + 1) true rest
  | _ :: rest => blockLengths (length + 1) false rest

/-- The blocks of a whole stream; a byte order mark is counted with the first one. -/
def sseBlocks : Bytes → List Nat
  | 0xEF :: 0xBB :: 0xBF :: rest => blockLengths 3 true rest
  | stream => blockLengths 0 true stream

/-- The bytes of the last block, which no empty line has ended. -/
def openBlock (stream : Bytes) : Nat := (sseBlocks stream).getLastD 0

def BlocksWithin (maxFrameBytes : Nat) (stream : Bytes) : Prop :=
  ∀ length ∈ sseBlocks stream, length ≤ maxFrameBytes

/-! ## Delimiters -/

/-- LF LF or CR LF CR LF ends here. -/
def EndsFrame (read : Bytes) : Bool :=
  [0x0A, 0x0A].isSuffixOf read || [0x0D, 0x0A, 0x0D, 0x0A].isSuffixOf read

/-- Among `maxFrameBytes + 1` consecutive bytes there is always the last one of a delimiter. -/
def FramesWithin (maxFrameBytes : Nat) (stream : Bytes) : Prop :=
  ∀ i, i + maxFrameBytes < stream.length →
    ∃ j ≤ maxFrameBytes, EndsFrame (stream.take (i + j + 1))

theorem framesWithin_nil (maxFrameBytes : Nat) : FramesWithin maxFrameBytes [] := by
  intro i hi
  simp at hi

variable {read : Bytes}

theorem framesWithin_snoc : FramesWithin maxFrameBytes (read ++ [byte]) ↔
      FramesWithin maxFrameBytes read ∧
        (maxFrameBytes ≤ read.length →
          ∃ j ≤ maxFrameBytes, EndsFrame ((read ++ [byte]).take (read.length + 1 - j))) := by
  constructor
  · intro h
    refine ⟨fun i hi => ?_, fun hlen => ?_⟩
    · obtain ⟨j, hj, hends⟩ := h i (by simp; omega)
      exact ⟨j, hj, by rwa [List.take_append_of_le_length (by omega)] at hends⟩
    · obtain ⟨j, hj, hends⟩ := h (read.length - maxFrameBytes) (by simp; omega)
      refine ⟨maxFrameBytes - j, by omega, ?_⟩
      rwa [show read.length + 1 - (maxFrameBytes - j) =
        read.length - maxFrameBytes + j + 1 by omega]
  · rintro ⟨hread, hlast⟩ i hi
    rw [List.length_append, List.length_singleton] at hi
    by_cases hinside : i + maxFrameBytes < read.length
    · obtain ⟨j, hj, hends⟩ := hread i hinside
      exact ⟨j, hj, by rwa [List.take_append_of_le_length (by omega)]⟩
    · obtain ⟨j, hj, hends⟩ := hlast (by omega)
      refine ⟨maxFrameBytes - j, by omega, ?_⟩
      rwa [show i + (maxFrameBytes - j) + 1 = read.length + 1 - j by omega]

/-! ## What the guard remembers -/

namespace DelimitedStreamFrameGuard

/-- The guard's state is that of the bytes it read. -/
structure HasRead (g : DelimitedStreamFrameGuard) (read : Bytes) : Prop where
  previous : g.previous = read.reverse[0]?
  beforePrevious : g.beforePrevious = read.reverse[1]?
  thirdPrevious : g.thirdPrevious = read.reverse[2]?
  frameBytes : ∀ m, m < g.frameBytes ↔
    m < read.length ∧ ∀ j ≤ m, EndsFrame (read.take (read.length - j)) = false

theorem hasRead_nil : HasRead {} [] := by
  constructor <;> simp

theorem endsFrame_snoc {read : Bytes} {byte : UInt8} :
    EndsFrame (read ++ [byte]) = true ↔ byte = 0x0A ∧
      (read.reverse[0]? = some 0x0A ∨ read.reverse[0]? = some 0x0D ∧
        read.reverse[1]? = some 0x0A ∧ read.reverse[2]? = some 0x0D) := by
  unfold EndsFrame
  simp only [Bool.or_eq_true, List.isSuffixOf_iff_suffix, ← List.reverse_prefix,
    List.reverse_append, List.reverse_cons, List.reverse_nil, List.nil_append, List.cons_append,
    List.cons_prefix_cons]
  have hsym (x y : UInt8) : x = y ↔ y = x := eq_comm
  rcases read.reverse with _ | ⟨a, _ | ⟨b, _ | ⟨c, rest⟩⟩⟩ <;>
    simp only [List.cons_prefix_cons, List.getElem?_cons_zero, List.getElem?_cons_succ,
      List.getElem?_nil, List.nil_prefix, List.prefix_nil, Option.some.injEq, reduceCtorEq,
      and_true, and_false, or_false, hsym 0x0A, hsym 0x0D]
  exact and_or_left.symm

variable {g : DelimitedStreamFrameGuard}

/-- The guard tells where a delimiter ends. -/
theorem HasRead.delimits (h : g.HasRead read) (byte : UInt8) :
    g.delimits byte = EndsFrame (read ++ [byte]) := by
  rw [Bool.eq_iff_iff, endsFrame_snoc, ← h.previous, ← h.beforePrevious, ← h.thirdPrevious]
  simp only [DelimitedStreamFrameGuard.delimits, Bool.or_eq_true, Bool.and_eq_true, beq_iff_eq]
  tauto

theorem take_whole (read : Bytes) (byte : UInt8) :
    (read ++ [byte]).take (read.length + 1) = read ++ [byte] :=
  List.take_of_length_le (by simp)

/-- A byte that ends a delimiter starts the count again. -/
theorem HasRead.reset (h : g.HasRead read) (hends : EndsFrame (read ++ [byte])) :
    (g.remember 0 byte).HasRead (read ++ [byte]) where
  previous := by simp [remember]
  beforePrevious := by simp [remember, h.previous]
  thirdPrevious := by simp [remember, h.beforePrevious]
  frameBytes m := by
    simp only [remember, Nat.not_lt_zero, false_iff, not_and]
    intro _ hnone
    have := hnone 0 (Nat.zero_le m)
    rw [List.length_append, List.length_singleton, Nat.sub_zero, take_whole, hends] at this
    cases this

/-- Any other byte is counted. -/
theorem HasRead.count (h : g.HasRead read) (hends : EndsFrame (read ++ [byte]) = false) :
    (g.remember (g.frameBytes + 1) byte).HasRead (read ++ [byte]) where
  previous := by simp [remember]
  beforePrevious := by simp [remember, h.previous]
  thirdPrevious := by simp [remember, h.beforePrevious]
  frameBytes m := by
    have htake (j : Nat) : (read ++ [byte]).take (read.length + 1 - (j + 1)) =
        read.take (read.length - j) := by
      rw [List.take_append_of_le_length (by omega), Nat.add_sub_add_right]
    simp only [remember, List.length_append, List.length_singleton]
    cases m with
    | zero => simpa [take_whole] using hends
    | succ m =>
        rw [Nat.add_lt_add_iff_right, h.frameBytes, Nat.add_lt_add_iff_right]
        refine and_congr_right fun _ => ⟨fun hnone j hj => ?_, fun hnone j hj => ?_⟩
        · cases j with
          | zero => rwa [Nat.sub_zero, take_whole]
          | succ j => rw [htake]; exact hnone j (by omega)
        · rw [← htake]
          exact hnone (j + 1) (by omega)

theorem push_snoc (limits : Limits) (g : DelimitedStreamFrameGuard) (read : Bytes)
    (byte : UInt8) :
    g.push limits (read ++ [byte]) = g.push limits read >>= fun g => g.pushByte limits byte := by
  simp [push, List.foldlM_append]

/-- **What the guard throws on**: it reads a stream to its end exactly when the delimiters leave
no more than `maxFrameBytes` bytes between them. -/
theorem push_eq (limits : Limits) (stream : Bytes) :
    (∃ g, push limits {} stream = .ok g ∧ g.HasRead stream ∧
        FramesWithin limits.maxFrameBytes stream) ∨
      (push limits {} stream = .error limits.fail ∧
        ¬ FramesWithin limits.maxFrameBytes stream) := by
  induction stream using List.reverseRecOn with
  | nil => exact .inl ⟨{}, rfl, hasRead_nil, framesWithin_nil _⟩
  | append_singleton read byte ih =>
      rw [push_snoc, framesWithin_snoc]
      rcases ih with ⟨g, hpush, hread, hwithin⟩ | ⟨hpush, hwithin⟩
      · rw [hpush]
        show (∃ g', g.pushByte limits byte = .ok g' ∧ _) ∨ (g.pushByte limits byte = _ ∧ _)
        unfold pushByte
        rw [hread.delimits]
        cases hends : EndsFrame (read ++ [byte]) with
        | true =>
            refine .inl ⟨_, rfl, hread.reset hends, hwithin, fun _ => ⟨0, Nat.zero_le _, ?_⟩⟩
            rwa [Nat.sub_zero, take_whole]
        | false =>
            have hcount := hread.count hends
            have hover := hcount.frameBytes limits.maxFrameBytes
            simp only [remember, List.length_append, List.length_singleton,
              Nat.lt_add_one_iff] at hover
            by_cases hlong : limits.maxFrameBytes ≤ g.frameBytes
            · refine .inr ⟨by simp [Nat.lt_add_one_iff, hlong], fun ⟨_, hlast⟩ => ?_⟩
              obtain ⟨hlen, hnone⟩ := hover.mp hlong
              obtain ⟨j, hj, hends⟩ := hlast hlen
              rw [hnone j hj] at hends
              cases hends
            · refine .inl ⟨_, by simp [Nat.lt_add_one_iff, hlong], hcount, hwithin, fun hlen => ?_⟩
              by_contra hnone
              refine hlong (hover.mpr ⟨hlen, fun j hj => ?_⟩)
              by_contra hends
              exact hnone ⟨j, hj, by simpa using hends⟩
      · rw [hpush]
        exact .inr ⟨rfl, fun h => hwithin h.1⟩

/-- A byte that is accepted is remembered; the count goes on or starts again. -/
theorem eq_of_pushByte (h : g.pushByte limits byte = .ok g') :
    g' = g.remember (if g.delimits byte then 0 else g.frameBytes + 1) byte := by
  unfold pushByte at h
  split_ifs at h with hd hm
  · cases h
    rw [if_pos hd]
  · cases h
    rw [if_neg hd]

end DelimitedStreamFrameGuard

/-! ## The unfinished block -/

theorem blockLengths_ne_nil (length : Nat) (lineEmpty : Bool) (stream : Bytes) :
    blockLengths length lineEmpty stream ≠ [] := by
  fun_induction blockLengths length lineEmpty stream <;> simp_all

theorem getLastD_cons_blockLengths (finished length : Nat) (lineEmpty : Bool) (stream : Bytes) :
    (finished :: blockLengths length lineEmpty stream).getLastD 0 =
      (blockLengths length lineEmpty stream).getLastD 0 := by
  obtain ⟨a, rest, h⟩ := List.exists_cons_of_ne_nil (blockLengths_ne_nil length lineEmpty stream)
  rw [h]
  rfl

namespace DelimitedStreamFrameGuard

/-- The guard has counted at least the unfinished block, and knows an empty line by its LF. -/
structure Covers (g : DelimitedStreamFrameGuard) (length : Nat) (lineEmpty : Bool)
    (stream : Bytes) : Prop where
  length_le : length ≤ g.frameBytes
  lineEmpty : g.previous = some 0x0A → lineEmpty = true
  /-- An LF behind a CR has been read with it. -/
  notSplit : g.previous = some 0x0D → stream.head? ≠ some 0x0A

theorem head?_ne_of_lone {rest : Bytes} (h : ∀ more, rest = 0x0A :: more → False) :
    rest.head? ≠ some 0x0A := by
  cases rest with
  | nil => simp
  | cons byte rest =>
      intro hhead
      cases hhead
      exact h rest rfl

variable {limits : Limits} {g g' : DelimitedStreamFrameGuard} {length : Nat} {lineEmpty : Bool}
  {byte : UInt8} {rest : Bytes}

/-- Only an LF ends a delimiter. -/
theorem delimits_eq_false (g : DelimitedStreamFrameGuard) (hbyte : byte ≠ 0x0A) :
    g.delimits byte = false := by
  simp [delimits, hbyte]

/-- At an LF the guard starts again only behind an empty line. -/
theorem Covers.lf (hg : g.Covers length lineEmpty (0x0A :: rest))
    (h : g.pushByte limits 0x0A = .ok g') :
    g'.Covers (if lineEmpty then 0 else length + 1) true rest := by
  have hcount := hg.length_le
  rw [eq_of_pushByte h]
  refine ⟨?_, fun _ => rfl, fun hcr => by simp [remember] at hcr⟩
  cases lineEmpty with
  | true => exact Nat.zero_le _
  | false =>
      have hlf : g.previous ≠ some 0x0A := fun hlf => by cases hg.lineEmpty hlf
      have hcr : g.previous ≠ some 0x0D := fun hcr => hg.notSplit hcr rfl
      have hdelimits : g.delimits 0x0A = false := by simp [delimits, hlf, hcr]
      simp only [remember, hdelimits]
      show length + 1 ≤ g.frameBytes + 1
      omega

/-- A CR behind an empty line ends a block, for which the guard waits for the LF. -/
theorem Covers.cr (hg : g.Covers length lineEmpty (0x0D :: rest)) (hrest : rest.head? ≠ some 0x0A)
    (h : g.pushByte limits 0x0D = .ok g') :
    g'.Covers (if lineEmpty then 0 else length + 1) true rest := by
  have hcount := hg.length_le
  rw [eq_of_pushByte h, delimits_eq_false g (by decide)]
  refine ⟨?_, fun _ => rfl, fun _ => hrest⟩
  show (if lineEmpty then 0 else length + 1) ≤ g.frameBytes + 1
  split_ifs <;> omega

theorem Covers.crlf {g₁ : DelimitedStreamFrameGuard}
    (hg : g.Covers length lineEmpty (0x0D :: 0x0A :: rest))
    (hcr : g.pushByte limits 0x0D = .ok g₁) (hlf : g₁.pushByte limits 0x0A = .ok g') :
    g'.Covers (if lineEmpty then 0 else length + 2) true rest := by
  have hcount := hg.length_le
  have hg₁ := eq_of_pushByte hcr
  rw [delimits_eq_false g (by decide)] at hg₁
  rw [eq_of_pushByte hlf]
  refine ⟨?_, fun _ => rfl, fun hcr => by simp [remember] at hcr⟩
  cases lineEmpty with
  | true => exact Nat.zero_le _
  | false =>
      have hprevious : g.previous ≠ some 0x0A := fun hlf => by cases hg.lineEmpty hlf
      have hdelimits : g₁.delimits 0x0A = false := by simp [hg₁, delimits, remember, hprevious]
      rw [hdelimits, hg₁]
      show length + 2 ≤ g.frameBytes + 1 + 1
      omega

theorem Covers.other (hg : g.Covers length lineEmpty (byte :: rest)) (hlf : byte ≠ 0x0A)
    (hcr : byte ≠ 0x0D) (h : g.pushByte limits byte = .ok g') :
    g'.Covers (length + 1) false rest := by
  have hcount := hg.length_le
  rw [eq_of_pushByte h, delimits_eq_false g hlf]
  refine ⟨?_, fun hprevious => ?_, fun hprevious => ?_⟩
  · show length + 1 ≤ g.frameBytes + 1
    omega
  · exact absurd (Option.some.inj hprevious) hlf
  · exact absurd (Option.some.inj hprevious) hcr

/-- By induction over the lines of the stream. -/
theorem getLastD_blockLengths_le {stream : Bytes} (hg : g.Covers length lineEmpty stream)
    (h : g.push limits stream = .ok g') :
    (blockLengths length lineEmpty stream).getLastD 0 ≤ g'.frameBytes := by
  fun_induction blockLengths length lineEmpty stream generalizing g with
  | case1 length lineEmpty =>
      cases h
      exact hg.length_le
  | case2 length rest ih =>
      obtain ⟨g₁, hlf, hrest⟩ := Lib.bind_eq_ok.mp h
      rw [getLastD_cons_blockLengths]
      exact ih (hg.lf hlf) hrest
  | case3 length lineEmpty rest hline ih =>
      obtain ⟨g₁, hlf, hrest⟩ := Lib.bind_eq_ok.mp h
      exact ih (by simpa [hline] using hg.lf hlf) hrest
  | case4 length rest ih =>
      obtain ⟨g₁, hcr, h⟩ := Lib.bind_eq_ok.mp h
      obtain ⟨g₂, hlf, hrest⟩ := Lib.bind_eq_ok.mp h
      rw [getLastD_cons_blockLengths]
      exact ih (hg.crlf hcr hlf) hrest
  | case5 length lineEmpty rest hline ih =>
      obtain ⟨g₁, hcr, h⟩ := Lib.bind_eq_ok.mp h
      obtain ⟨g₂, hlf, hrest⟩ := Lib.bind_eq_ok.mp h
      exact ih (by simpa [hline] using hg.crlf hcr hlf) hrest
  | case6 length rest hlone ih =>
      obtain ⟨g₁, hcr, hrest⟩ := Lib.bind_eq_ok.mp h
      rw [getLastD_cons_blockLengths]
      exact ih (hg.cr (head?_ne_of_lone hlone) hcr) hrest
  | case7 length lineEmpty rest hlone hline ih =>
      obtain ⟨g₁, hcr, hrest⟩ := Lib.bind_eq_ok.mp h
      exact ih (by simpa [hline] using hg.cr (head?_ne_of_lone hlone) hcr) hrest
  | case8 length lineEmpty byte rest hlf _ hcr ih =>
      obtain ⟨g₁, hbyte, hrest⟩ := Lib.bind_eq_ok.mp h
      exact ih (hg.other (fun h => hlf h) (fun h => hcr h) hbyte) hrest

end DelimitedStreamFrameGuard

/-- **The guard never counts less than the unfinished block**, so it stops a block in time. -/
theorem openBlock_le {limits : Limits}
    (h : DelimitedStreamFrameGuard.push limits {} stream = .ok g) :
    openBlock stream ≤ g.frameBytes := by
  unfold openBlock sseBlocks
  split
  · next rest =>
      obtain ⟨g₁, h₁, h⟩ := Lib.bind_eq_ok.mp h
      obtain ⟨g₂, h₂, h⟩ := Lib.bind_eq_ok.mp h
      obtain ⟨g₃, h₃, h⟩ := Lib.bind_eq_ok.mp h
      have hg := DelimitedStreamFrameGuard.eq_of_pushByte h₃
      rw [DelimitedStreamFrameGuard.eq_of_pushByte h₂,
        DelimitedStreamFrameGuard.eq_of_pushByte h₁] at hg
      refine DelimitedStreamFrameGuard.getLastD_blockLengths_le ?_ h
      rw [hg]
      exact ⟨Nat.le_refl 3, fun _ => rfl, fun hcr => by cases hcr⟩
  · exact DelimitedStreamFrameGuard.getLastD_blockLengths_le
      ⟨Nat.le_refl 0, fun hlf => rfl, fun hcr => by cases hcr⟩ h

end StonePlus.FrameGuard
