import NucleoW5500.BigFile
import NucleoW5500.Split

/-! `extract_token` of `ssl_token.c`. It reads two strings, and its writes to `buf` are recorded
with their index, inside the buffer or not. -/

namespace NucleoW5500.Token

open CString Split

/-- A write to `buf`: the index and the character. -/
abbrev Store := Int × UInt8

def strstr (mem : List UInt8) (i : ℕ) (del : List UInt8) : Option ℕ :=
  (find (cstr del 0) (cstr mem i)).map (i + ·)

/-- Writes one after the other, the first at index `a`. -/
def copyAt (a : ℕ) : List UInt8 → List Store
  | [] => []
  | c :: cs => (a, c) :: copyAt (a + 1) cs

/-- `strncpy` to `buf`, which fills what the string leaves over with zeros. -/
def strncpy (mem : List UInt8) (i n : ℕ) : List Store :=
  copyAt 0 ((cstr mem i).take n ++ List.replicate (n - strlen mem i) 0)

/-- The token ends at a delimiter. -/
def copyDelimited (src : List UInt8) (tokenStart tokenEnd : ℕ) (bufSize : Int) : List Store :=
  let tokenLen : Int := tokenEnd - tokenStart
  (if tokenLen > bufSize then
      strncpy src tokenStart (sizeT bufSize) ++ [(bufSize - 1, 0)]
    else strncpy src tokenStart (sizeT tokenLen)) ++
    [(tokenLen, 0)]

/-- The token ends with the string. -/
def copyLast (src : List UInt8) (tokenStart : ℕ) (bufSize : Int) : List Store :=
  strncpy src tokenStart (sizeT bufSize) ++ [(bufSize - 1, 0)]

/-- The passes of the loop that are left; the last one has `i == pos - 1`. -/
def extractLoop (src del : List UInt8) (bufSize : Int) : ℕ → ℕ → ℕ → Option ℕ × List Store
  | 0, _, _ => (none, [])
  | n + 1, tokenStart, tokenEnd =>
    match strstr src tokenEnd del with
    | some tokenEnd =>
      if n = 0 then (some tokenStart, copyDelimited src tokenStart tokenEnd bufSize)
      else extractLoop src del bufSize n (tokenEnd + strlen del 0) (tokenEnd + strlen del 0)
    | none => if n = 0 then (some tokenStart, copyLast src tokenStart bufSize) else (none, [])

/-- The offset in `src` of the token that is returned, and the writes to `buf`. -/
def extractToken (src del : List UInt8) (pos bufSize : Int) : Option ℕ × List Store :=
  extractLoop src del bufSize pos.toNat 0 0

/-- What a buffer holds after some writes, as far as they are inside it. -/
def stored (buf : List UInt8) (stores : List Store) : List UInt8 :=
  stores.foldl (fun buf s => if 0 ≤ s.1 then buf.set s.1.toNat s.2 else buf) buf

/-- The fields of `src`, the first one at index 0. -/
def tokens (src del : List UInt8) : List (ℕ × List UInt8) := fields (cstr del 0) 0 (cstr src 0)

/-- Every write is to `buf[0..buf_size-1]`. -/
def InBuffer (bufSize : Int) (stores : List Store) : Prop :=
  ∀ s ∈ stores, 0 ≤ s.1 ∧ s.1 < bufSize

/-- Any buffer of the size begins with `text` and a terminator after the writes. -/
def Holds (bufSize : Int) (stores : List Store) (text : List UInt8) : Prop :=
  ∀ buf : List UInt8, buf.length = bufSize.toNat → text ++ [0] <+: stored buf stores

/-- A token at least as long as the buffer, with a delimiter after it. -/
def LongToken (src del : List UInt8) (pos bufSize : Int) : Prop :=
  1 ≤ pos ∧ pos < (tokens src del).length ∧
    ∃ piece, (tokens src del)[pos.toNat - 1]? = some piece ∧ bufSize ≤ piece.2.length

theorem cstr_drop {mem : List UInt8} {i : ℕ} (h : i ≤ strlen mem 0) :
    cstr mem i = (cstr mem 0).drop i := by
  have hmem := List.takeWhile_append_dropWhile (p := (· != 0)) (l := mem)
  have hstop : ((mem.dropWhile (· != 0)).takeWhile (· != 0)) = [] := by
    cases hrest : mem.dropWhile (· != 0) with
    | nil => rfl
    | cons c rest =>
      have hc := List.head?_dropWhile_not (· != 0) mem
      rw [hrest] at hc
      rw [List.takeWhile_cons_of_neg]
      simpa using hc
  have hchars : ∀ c ∈ (cstr mem 0).drop i, (c != 0) = true := fun c hc =>
    List.mem_takeWhile_imp (p := (· != 0)) (List.mem_of_mem_drop hc)
  calc cstr mem i = (((cstr mem 0) ++ mem.dropWhile (· != 0)).drop i).takeWhile (· != 0) := by
        rw [cstr, cstr, List.drop_zero, hmem]
    _ = ((cstr mem 0).drop i ++ mem.dropWhile (· != 0)).takeWhile (· != 0) := by
        rw [List.drop_append_of_le_length h]
    _ = (cstr mem 0).drop i := by
        rw [List.takeWhile_append_of_pos hchars, hstop, List.append_nil]

theorem sizeT_of_int {n : Int} (h₀ : 0 ≤ n) (h : n < 2 ^ 31) : sizeT n = n.toNat := by
  obtain ⟨k, rfl⟩ := Int.eq_ofNat_of_zero_le h₀
  rw [sizeT, UInt32.ofInt, UInt32.toNat_ofNat']
  omega

/-- What a call gives for the token with index `n` among `pieces`. -/
def copyPiece (src : List UInt8) (bufSize : Int) :
    ℕ → List (ℕ × List UInt8) → Option ℕ × List Store
  | _, [] => (none, [])
  | 0, [(start, _)] => (some start, copyLast src start bufSize)
  | 0, (start, text) :: _ :: _ => (some start, copyDelimited src start (start + text.length) bufSize)
  | n + 1, _ :: pieces => copyPiece src bufSize n pieces

theorem extractLoop_eq (src del : List UInt8) (hdel : cstr del 0 ≠ []) (bufSize : Int) (n o : ℕ)
    (ho : o ≤ strlen src 0) :
    extractLoop src del bufSize (n + 1) o o =
      copyPiece src bufSize n (fields (cstr del 0) o (cstr src o)) := by
  induction n generalizing o with
  | zero =>
    rw [extractLoop, strstr]
    cases hfind : find (cstr del 0) (cstr src o) with
    | none =>
      rw [fields_none hfind]
      rfl
    | some k =>
      obtain ⟨piece, pieces, hmore⟩ := List.exists_cons_of_ne_nil
        (fields_ne_nil (cstr del 0) ((cstr src o).drop (k + (cstr del 0).length))
          (o + (k + (cstr del 0).length)))
      have hk : ((cstr src o).take k).length = k := by
        have hle := find_add_length_le hdel hfind
        rw [List.length_take]
        omega
      rw [fields_some hdel hfind, hmore, copyPiece, hk]
      rfl
  | succ n ih =>
    rw [extractLoop, strstr]
    cases hfind : find (cstr del 0) (cstr src o) with
    | none =>
      rw [fields_none hfind, copyPiece, copyPiece]
      rfl
    | some k =>
      have hle := find_add_length_le hdel hfind
      rw [cstr_drop ho, List.length_drop] at hle
      have hnext : o + (k + (cstr del 0).length) ≤ strlen src 0 := by
        rw [strlen] at ho ⊢
        omega
      have hrest : cstr src (o + (k + (cstr del 0).length)) =
          (cstr src o).drop (k + (cstr del 0).length) := by
        rw [cstr_drop hnext, cstr_drop ho, List.drop_drop]
      rw [fields_some hdel hfind, copyPiece, ← hrest, ← ih _ hnext, ← Nat.add_assoc]
      rfl

theorem copyPiece_of_le {src : List UInt8} {bufSize : Int} {n : ℕ}
    {pieces : List (ℕ × List UInt8)} (h : pieces.length ≤ n) :
    copyPiece src bufSize n pieces = (none, []) := by
  induction pieces generalizing n with
  | nil => rw [copyPiece]
  | cons piece pieces ih =>
    cases n with
    | zero => exact absurd h (by simp)
    | succ n =>
      rw [copyPiece]
      exact ih (Nat.le_of_succ_le_succ h)

theorem copyPiece_of_lt {src : List UInt8} {bufSize : Int} {n : ℕ}
    {pieces : List (ℕ × List UInt8)} {piece : ℕ × List UInt8} (h : pieces[n]? = some piece) :
    copyPiece src bufSize n pieces = (some piece.1,
      if n + 1 < pieces.length then copyDelimited src piece.1 (piece.1 + piece.2.length) bufSize
      else copyLast src piece.1 bufSize) := by
  induction pieces generalizing n with
  | nil => cases h
  | cons first pieces ih =>
    cases n with
    | zero =>
      cases h
      cases pieces with
      | nil => rfl
      | cons second pieces =>
        rw [copyPiece, if_pos (by simp)]
    | succ n =>
      rw [copyPiece, ih h, List.length_cons]
      simp only [Nat.add_lt_add_iff_right]

theorem extractToken_eq (src del : List UInt8) (hdel : cstr del 0 ≠ []) {pos : Int} (h : 1 ≤ pos)
    (bufSize : Int) :
    extractToken src del pos bufSize = copyPiece src bufSize (pos.toNat - 1) (tokens src del) := by
  have hpass : pos.toNat = pos.toNat - 1 + 1 := by omega
  rw [extractToken, hpass]
  exact extractLoop_eq src del hdel bufSize _ 0 (Nat.zero_le _)

/-! What the writes leave in the buffer. -/

theorem stored_append (buf : List UInt8) (s t : List Store) :
    stored buf (s ++ t) = stored (stored buf s) t :=
  List.foldl_append

theorem stored_copyAt (a bs : List UInt8) {rest : List UInt8} (h : bs.length ≤ rest.length) :
    stored (a ++ rest) (copyAt a.length bs) = a ++ bs ++ rest.drop bs.length := by
  induction bs generalizing a rest with
  | nil => simp [copyAt, stored]
  | cons b bs ih =>
    cases rest with
    | nil => exact absurd h (by simp)
    | cons c rest =>
      have hnext := ih (a ++ [b]) (Nat.le_of_succ_le_succ h)
      rw [List.length_append, List.append_assoc] at hnext
      show stored ((a ++ c :: rest).set a.length b) (copyAt (a.length + 1) bs) = _
      rw [List.set_append_right _ _ (Nat.le_refl _), Nat.sub_self]
      exact hnext.trans (by simp)

theorem mem_copyAt {a : ℕ} {bs : List UInt8} {s : Store} (h : s ∈ copyAt a bs) :
    0 ≤ s.1 ∧ s.1 < a + bs.length := by
  induction bs generalizing a with
  | nil => cases h
  | cons b bs ih =>
    rcases List.mem_cons.mp h with rfl | h
    · simp only [List.length_cons]
      omega
    · have hs := ih h
      simp only [List.length_cons]
      omega

theorem length_strncpy_bytes (mem : List UInt8) (i n : ℕ) :
    ((cstr mem i).take n ++ List.replicate (n - strlen mem i) 0).length = n := by
  rw [List.length_append, List.length_take, List.length_replicate, strlen]
  omega

theorem mem_strncpy {mem : List UInt8} {i n : ℕ} {s : Store} (h : s ∈ strncpy mem i n) :
    0 ≤ s.1 ∧ s.1 < n := by
  have hs := mem_copyAt h
  rw [length_strncpy_bytes] at hs
  omega

theorem stored_strncpy (mem : List UInt8) (i : ℕ) {n : ℕ} {buf : List UInt8} (h : n ≤ buf.length) :
    stored buf (strncpy mem i n) =
      (cstr mem i).take n ++ (List.replicate (n - strlen mem i) 0 ++ buf.drop n) := by
  have hlen : ((cstr mem i).take n ++ List.replicate (n - strlen mem i) 0).length ≤ buf.length := by
    rwa [length_strncpy_bytes]
  have hcopy := stored_copyAt [] _ hlen
  rw [length_strncpy_bytes, List.nil_append, List.nil_append, List.append_assoc] at hcopy
  exact hcopy

section Copies

variable {src : List UInt8} {start len : ℕ} {bufSize : Int}

theorem copyDelimited_outside (h : bufSize ≤ len) :
    ¬ InBuffer bufSize (copyDelimited src start (start + len) bufSize) := by
  intro hin
  have hlen : ((start + len : ℕ) : Int) - start = len := by omega
  have hend := hin ((((start + len : ℕ) : Int) - start), 0)
    (List.mem_append_right _ List.mem_cons_self)
  omega

theorem copyDelimited_of_lt (h : (len : Int) < bufSize) (hmax : bufSize < 2 ^ 31) :
    copyDelimited src start (start + len) bufSize = strncpy src start len ++ [((len : Int), 0)] := by
  have hlen : ((start + len : ℕ) : Int) - start = len := by omega
  have hsize : sizeT (len : Int) = len := sizeT_of_int (by omega) (by omega)
  simp only [copyDelimited, hlen]
  rw [if_neg (by omega), hsize]

theorem copyDelimited_inBuffer (h : (len : Int) < bufSize) (hmax : bufSize < 2 ^ 31) :
    InBuffer bufSize (copyDelimited src start (start + len) bufSize) := by
  rw [copyDelimited_of_lt h hmax]
  intro s hs
  rcases List.mem_append.mp hs with hs | hs
  · have := mem_strncpy hs
    omega
  · cases List.mem_singleton.mp hs
    exact ⟨Int.natCast_nonneg len, h⟩

theorem copyDelimited_holds (hlen : len ≤ strlen src start) (h : (len : Int) < bufSize)
    (hmax : bufSize < 2 ^ 31) :
    Holds bufSize (copyDelimited src start (start + len) bufSize) ((cstr src start).take len) := by
  intro buf hbuf
  have htake : ((cstr src start).take len).length = len := by
    rw [List.length_take]
    exact Nat.min_eq_left hlen
  obtain ⟨c, rest, hrest⟩ : ∃ c rest, buf.drop len = c :: rest := by
    apply List.exists_cons_of_ne_nil
    intro hnil
    have := List.drop_eq_nil_iff.mp hnil
    omega
  rw [copyDelimited_of_lt h hmax, stored_append, stored_strncpy src start (by omega),
    Nat.sub_eq_zero_of_le hlen, List.replicate_zero, List.nil_append, hrest]
  show _ <+: ((cstr src start).take len ++ c :: rest).set len 0
  rw [List.set_append_right _ _ htake.le, htake, Nat.sub_self, List.set_cons_zero]
  exact ⟨rest, by simp⟩

theorem copyLast_inBuffer (h₁ : 1 ≤ bufSize) (hmax : bufSize < 2 ^ 31) :
    InBuffer bufSize (copyLast src start bufSize) := by
  intro s hs
  rw [copyLast, sizeT_of_int (by omega) hmax] at hs
  rcases List.mem_append.mp hs with hs | hs
  · have := mem_strncpy hs
    omega
  · cases List.mem_singleton.mp hs
    exact ⟨by omega, by omega⟩

/-- The last byte of the buffer is overwritten, whether it holds a character or a zero. -/
theorem set_padded_prefix (l : List UInt8) (m : ℕ) :
    l.take m ++ [0] <+: (l.take (m + 1) ++ List.replicate (m + 1 - l.length) 0).set m 0 := by
  rcases Nat.lt_or_ge m l.length with h | h
  · have hlen : (l.take m).length = m := by
      rw [List.length_take]
      omega
    rw [Nat.sub_eq_zero_of_le h, List.replicate_zero, List.append_nil,
      List.take_succ_eq_append_getElem h, List.set_append_right _ _ hlen.le, hlen, Nat.sub_self]
    exact List.prefix_rfl
  · obtain ⟨d, hd⟩ := Nat.exists_eq_add_of_le h
    have hzeros : m + 1 - l.length = d + 1 := by omega
    rw [List.take_of_length_le h, List.take_of_length_le (by omega), List.set_append_right _ _ h,
      List.set_replicate_self, hzeros, List.replicate_succ]
    exact ⟨List.replicate d 0, by simp⟩

theorem copyLast_holds (src : List UInt8) (start : ℕ) (h₁ : 1 ≤ bufSize) (hmax : bufSize < 2 ^ 31) :
    Holds bufSize (copyLast src start bufSize)
      ((cstr src start).take (bufSize - 1).toNat) := by
  intro buf hbuf
  have hsize : sizeT bufSize = (bufSize - 1).toNat + 1 := by
    rw [sizeT_of_int (by omega) hmax]
    omega
  have hfull : buf.drop ((bufSize - 1).toNat + 1) = [] := List.drop_eq_nil_of_le (by omega)
  rw [copyLast, hsize, stored_append, stored_strncpy src start (by omega), hfull, List.append_nil]
  show _ <+: if (0 : Int) ≤ bufSize - 1 then _ else _
  rw [if_pos (by omega)]
  exact set_padded_prefix (cstr src start) _

end Copies

section Tokens

variable {src del : List UInt8} {pos bufSize : Int} {piece : ℕ × List UInt8}

theorem tokens_cut (hdel : cstr del 0 ≠ []) :
    Cut (cstr del 0) (cstr src 0) 0 (tokens src del) :=
  fields_cut hdel (Nat.zero_le _)

theorem tokens_piece (hdel : cstr del 0 ≠ []) {n : ℕ} (h : (tokens src del)[n]? = some piece) :
    piece.2 = (cstr src piece.1).take piece.2.length ∧
      piece.2.length ≤ strlen src piece.1 ∧
      (n + 1 = (tokens src del).length → piece.2 = cstr src piece.1) := by
  have hpiece := (tokens_cut hdel).piece hdel (Nat.zero_le _) h
  rw [← cstr_drop hpiece.1] at hpiece
  refine ⟨hpiece.2.1, ?_, hpiece.2.2⟩
  have hlen := congrArg List.length hpiece.2.1
  rw [List.length_take] at hlen
  rw [strlen]
  omega

theorem extractToken_piece (hdel : cstr del 0 ≠ []) (h₁ : 1 ≤ pos)
    (h : (tokens src del)[pos.toNat - 1]? = some piece) :
    extractToken src del pos bufSize = (some piece.1,
      if pos < (tokens src del).length then
        copyDelimited src piece.1 (piece.1 + piece.2.length) bufSize
      else copyLast src piece.1 bufSize) := by
  have hlast : pos.toNat - 1 + 1 < (tokens src del).length ↔ pos < (tokens src del).length := by
    omega
  rw [extractToken_eq src del hdel h₁, copyPiece_of_lt h]
  simp only [hlast]

theorem extractToken_nothing (hdel : cstr del 0 ≠ [])
    (h : pos < 1 ∨ (tokens src del).length < pos) :
    extractToken src del pos bufSize = (none, []) := by
  rcases Int.lt_or_le pos 1 with hpos | hpos
  · have hpass : pos.toNat = 0 := by omega
    rw [extractToken, hpass, extractLoop]
  · rw [extractToken_eq src del hdel hpos, copyPiece_of_le (by omega)]

theorem exists_piece (h : ¬ (pos < 1 ∨ (tokens src del).length < pos)) :
    1 ≤ pos ∧ ∃ piece, (tokens src del)[pos.toNat - 1]? = some piece :=
  ⟨by omega, _, List.getElem?_eq_getElem (by omega)⟩

theorem extractToken_none (hdel : cstr del 0 ≠ []) :
    (extractToken src del pos bufSize).1 = none ↔ pos < 1 ∨ (tokens src del).length < pos := by
  constructor
  · intro hnone
    by_contra hpos
    obtain ⟨hlow, piece, hpiece⟩ := exists_piece hpos
    rw [extractToken_piece hdel hlow hpiece] at hnone
    cases hnone
  · intro hpos
    rw [extractToken_nothing hdel hpos]

/-- What the buffer holds of a token that there is, unless the token is too long. -/
theorem extractToken_held (hdel : cstr del 0 ≠ []) (h₁ : 1 ≤ bufSize) (hmax : bufSize < 2 ^ 31)
    (hpos : 1 ≤ pos) (hpiece : (tokens src del)[pos.toNat - 1]? = some piece)
    (hshort : pos < (tokens src del).length → piece.2.length < bufSize) :
    InBuffer bufSize (extractToken src del pos bufSize).2 ∧
      Holds bufSize (extractToken src del pos bufSize).2 (piece.2.take (bufSize - 1).toNat) := by
  obtain ⟨htext, hle, hwhole⟩ := tokens_piece hdel hpiece
  rw [extractToken_piece hdel hpos hpiece]
  by_cases hmore : pos < (tokens src del).length
  · have hlen := hshort hmore
    rw [if_pos hmore, List.take_of_length_le (by omega)]
    have hholds := copyDelimited_holds hle hlen hmax
    rw [← htext] at hholds
    exact ⟨copyDelimited_inBuffer hlen hmax, hholds⟩
  · have hlast := hwhole (by have := (List.getElem?_eq_some_iff.mp hpiece).1; omega)
    rw [if_neg hmore]
    have hholds := copyLast_holds src piece.1 h₁ hmax
    rw [← hlast] at hholds
    exact ⟨copyLast_inBuffer h₁ hmax, hholds⟩

/-- `extract_token` gives the token at `pos` of the string cut at `del`. -/
theorem extractToken_agrees (src del : List UInt8) (hdel : cstr del 0 ≠ []) (pos bufSize : Int)
    (hmax : bufSize < 2 ^ 31) :
    Cut (cstr del 0) (cstr src 0) 0 (tokens src del) ∧
      ((extractToken src del pos bufSize).1 = none ↔ pos < 1 ∨ (tokens src del).length < pos) ∧
      ∀ piece, 1 ≤ pos → (tokens src del)[pos.toNat - 1]? = some piece →
        (extractToken src del pos bufSize).1 = some piece.1 ∧
          (piece.2.length < bufSize →
            Holds bufSize (extractToken src del pos bufSize).2 piece.2) := by
  refine ⟨tokens_cut hdel, extractToken_none hdel, fun piece hpos hpiece => ⟨?_, fun hlen => ?_⟩⟩
  · rw [extractToken_piece hdel hpos hpiece]
  · have hheld := (extractToken_held hdel (by omega) hmax hpos hpiece fun _ => hlen).2
    rwa [List.take_of_length_le (by omega)] at hheld

theorem extractToken_agrees_at_third :
    (extractToken [97, 59, 59, 98, 0] [59, 0] 3 4).1 = some 3 := by
  have hdel : cstr [59, 0] 0 ≠ [] := by decide
  have hfields : (tokens [97, 59, 59, 98, 0] [59, 0])[2]? = some (3, [98]) := by
    simp [tokens, fields, cstr, find]
  exact ((extractToken_agrees [97, 59, 59, 98, 0] [59, 0] hdel 3 4 (by decide)).2.2 _ (by decide)
    hfields).1

/-- There is a write behind the buffer exactly when the token is as long as the buffer and a
delimiter comes after it. -/
theorem extractToken_contained_iff (src del : List UInt8) (hdel : cstr del 0 ≠ [])
    (pos bufSize : Int) (h₁ : 1 ≤ bufSize) (hmax : bufSize < 2 ^ 31) :
    (InBuffer bufSize (extractToken src del pos bufSize).2 ∧
      ∀ start, (extractToken src del pos bufSize).1 = some start →
        ∃ piece, (tokens src del)[pos.toNat - 1]? = some piece ∧
          Holds bufSize (extractToken src del pos bufSize).2
            (piece.2.take (bufSize - 1).toNat)) ↔
      ¬ LongToken src del pos bufSize := by
  by_cases hpos : pos < 1 ∨ (tokens src del).length < pos
  · rw [extractToken_nothing hdel hpos]
    refine iff_of_true ⟨fun s hs => absurd hs List.not_mem_nil, fun _ h => nomatch h⟩ ?_
    rintro ⟨hlow, hhigh, -⟩
    omega
  · obtain ⟨hpass, piece, hpiece⟩ := exists_piece hpos
    constructor
    · rintro ⟨hin, -⟩ ⟨hlow, hmore, long, hlong, hlen⟩
      rw [extractToken_piece hdel hlow hlong, if_pos hmore] at hin
      exact copyDelimited_outside hlen hin
    · intro hnot
      have hheld := extractToken_held hdel h₁ hmax hpass hpiece fun hmore => by
        by_contra hlong
        exact hnot ⟨hpass, hmore, piece, hpiece, by omega⟩
      exact ⟨hheld.1, fun _ _ => ⟨piece, hpiece, hheld.2⟩⟩

theorem extractToken_contained_at_first :
    ¬ LongToken [97, 44, 98, 0] [44, 0] 1 2 := by
  have hdel : cstr [44, 0] 0 ≠ [] := by decide
  apply (extractToken_contained_iff [97, 44, 98, 0] [44, 0] hdel 1 2 (by decide) (by decide)).mp
  have hfields : tokens [97, 44, 98, 0] [44, 0] = [(0, [97]), (2, [98])] := by
    simp [tokens, fields, cstr, find]
  have hcall : extractToken [97, 44, 98, 0] [44, 0] 1 2 = (some 0, [(0, 97), (1, 0)]) := by decide
  rw [hfields, hcall]
  refine ⟨by unfold InBuffer; decide, fun _ _ => ⟨(0, [97]), rfl, fun buf hbuf => ?_⟩⟩
  obtain ⟨a, b, rfl⟩ := List.length_eq_two.mp hbuf
  exact ⟨[], rfl⟩

/-- The token `abc` before a delimiter, and a buffer of three: the terminator is behind it. -/
theorem extractToken_overruns :
    ¬ ∀ (src del : List UInt8) (pos bufSize : Int), cstr del 0 ≠ [] → 1 ≤ bufSize →
      bufSize < 2 ^ 31 → InBuffer bufSize (extractToken src del pos bufSize).2 := by
  intro h
  have hin := h [97, 98, 99, 44, 100, 0] [44, 0] 1 3 (by decide) (by decide) (by decide)
  exact absurd (hin (3, 0) (by decide)) (by decide)

end Tokens

end NucleoW5500.Token
