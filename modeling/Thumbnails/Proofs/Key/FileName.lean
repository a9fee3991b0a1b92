import Mathlib.Data.List.Infix
import Thumbnails.Key.FileName
import Thumbnails.Proofs.Text.Encoding

/-!
# What a file name tells

The name of a thumbnail's file is made of parts that each lose something. Two of them together tell
the text of the path, the page and the version, as long as the digests do not collide
(`ThumbnailKey.parts_eq_of_fileName_eq`).

The digest alone does not. What is hashed has zeros between its parts, and parts may hold zeros, so
the parts of two keys can be cut at different zeros of the same bytes. The version that begins
further ahead then ends in a zero and the other version. In the name this zero has become an
underscore, where the name of the other key has the last digit of its page.
-/

namespace Thumbnails

/-- Two byte lists are told apart by their digests if they differ. -/
def Sha256.Separates (first second : List UInt8) : Prop :=
  digest first = digest second → first = second

namespace ThumbnailKey

variable {left right key : ThumbnailKey}

/-- The text of the source path. Ill-formed pieces of the path show as replacement characters. -/
def pathText (key : ThumbnailKey) : List Char :=
  Utf8.decodeLossy key.image.path.bytes

theorem sanitize_append (front back : List Char) :
    sanitize (front ++ back) = sanitize front ++ sanitize back :=
  List.map_append

theorem isSafe_of_mem_sanitize {text : List Char} {character : Char}
    (characterMem : character ∈ sanitize text) : isSafe character = true := by
  rcases List.mem_map.mp characterMem with ⟨original, _, rfl⟩
  split
  · assumption
  · rfl

theorem pageBytes_injective : Function.Injective pageBytes := by
  intro left right same
  apply UInt32.toNat_inj.mp
  have byte : ∀ {first second : Nat}, UInt8.ofNat first = UInt8.ofNat second →
      first % 256 = second % 256 := by
    intro first second eq
    simpa using congrArg UInt8.toNat eq
  simp only [pageBytes, List.map_cons, List.map_nil, List.cons.injEq, and_true,
    Nat.shiftRight_eq_div_pow, Nat.pow_zero, Nat.div_one] at same
  rcases same with ⟨lowest, lower, higher, highest⟩
  have two := mod_mul_congr (byte lowest) (byte lower)
  have three := mod_mul_congr two (byte higher)
  have four := mod_mul_congr three (byte highest)
  exact ((Nat.mod_eq_of_lt left.toNat_lt).symm.trans four).trans (Nat.mod_eq_of_lt right.toNat_lt)

/-- A name before the digest: the stem, the page and the version. -/
def readablePart (key : ThumbnailKey) : List Char :=
  sanitize key.stem ++ '_' :: Nat.toDigits 10 key.image.page.toNat ++ sanitize key.version.toList

theorem fileNameText_eq (key : ThumbnailKey) :
    key.fileNameText = key.readablePart ++ '_' :: key.digest ++ ['.', 'p', 'n', 'g'] :=
  rfl

theorem readablePart_eq_of_fileName_eq (same : left.fileName = right.fileName) :
    left.readablePart = right.readablePart ∧
      Sha256.digest left.identity = Sha256.digest right.identity := by
  have texts : left.fileNameText = right.fileNameText := Utf8.encode_injective same
  rw [fileNameText_eq, fileNameText_eq] at texts
  have unsuffixed := List.append_cancel_right texts
  rcases List.append_inj' unsuffixed (by simp [digest, Sha256.State.length_hex]) with
    ⟨readable, digests⟩
  exact ⟨readable, Sha256.State.hex_injective (List.cons.inj digests).2⟩

theorem identity_eq (key : ThumbnailKey) : key.identity =
    Utf8.encode key.pathText ++ 0 :: pageBytes key.image.page ++ 0 :: Utf8.bytesOf key.version :=
  rfl

/-- Parts are cut at the same zeros if the versions have the same length. -/
theorem parts_eq_of_identity_eq (same : left.identity = right.identity)
    (lengths : (Utf8.bytesOf left.version).length = (Utf8.bytesOf right.version).length) :
    left.pathText = right.pathText ∧ left.image.page = right.image.page ∧
      left.version = right.version := by
  rw [identity_eq, identity_eq] at same
  rcases List.append_inj' same (by simpa using lengths) with ⟨front, versions⟩
  rcases List.append_inj' front (by simp [pageBytes]) with ⟨texts, pages⟩
  exact ⟨Utf8.encode_injective texts, pageBytes_injective (List.cons.inj pages).2,
    Utf8.bytesOf_injective (List.cons.inj versions).2⟩

/-- A version that begins further ahead ends in a zero and the other version. -/
theorem version_eq_of_identity_eq (same : left.identity = right.identity)
    (longer : (Utf8.bytesOf right.version).length < (Utf8.bytesOf left.version).length) :
    ∃ before, left.version.toList = before ++ '\x00' :: right.version.toList := by
  have leftSuffix : Utf8.bytesOf left.version <:+ left.identity :=
    ⟨_, by rw [identity_eq, List.append_cons]⟩
  have rightSuffix : 0 :: Utf8.bytesOf right.version <:+ left.identity :=
    ⟨_, by rw [same, identity_eq]⟩
  rcases List.suffix_of_suffix_length_le rightSuffix leftSuffix
    (by simpa using Nat.succ_le_of_lt longer) with
    ⟨front, cut⟩
  rcases Utf8.exists_eq_append_of_encode_eq cut.symm with ⟨before, after, versionEq, afterEq⟩
  exact ⟨before, by rw [versionEq, Utf8.encode_injective afterEq]⟩

theorem underscore_not_mem_digits (number : Nat) : '_' ∉ Nat.toDigits 10 number := by
  intro underscoreMem
  have isDigit := Nat.isDigit_of_mem_toDigits (by decide) (by decide) underscoreMem
  simp [Char.isDigit] at isDigit

/-- Names tell apart what is cut at different zeros. -/
theorem readablePart_ne {before : List Char}
    (version : left.version.toList = before ++ '\x00' :: right.version.toList) :
    left.readablePart ≠ right.readablePart := by
  intro same
  have sanitized : sanitize left.version.toList =
      sanitize before ++ ['_'] ++ sanitize right.version.toList := by
    rw [version, List.append_cons, sanitize_append, sanitize_append]
    rfl
  rw [readablePart, readablePart, sanitized, ← List.append_assoc] at same
  have ends := congrArg List.getLast? (List.append_cancel_right same)
  rw [← List.append_assoc, List.getLast?_concat, List.getLast?_append_of_ne_nil _ (by simp),
    List.getLast?_cons_of_ne_nil Nat.toDigits_ne_nil] at ends
  exact underscore_not_mem_digits _ (List.mem_of_getLast? ends.symm)

/-- A name tells the text of the path, the page and the version of its key. -/
theorem parts_eq_of_fileName_eq (same : left.fileName = right.fileName)
    (separates : Sha256.Separates left.identity right.identity) :
    left.pathText = right.pathText ∧ left.image.page = right.image.page ∧
      left.version = right.version := by
  rcases readablePart_eq_of_fileName_eq same with ⟨readable, digests⟩
  have identities := separates digests
  rcases Nat.lt_trichotomy (Utf8.bytesOf left.version).length
    (Utf8.bytesOf right.version).length with shorter | equal | longer
  · rcases version_eq_of_identity_eq identities.symm shorter with ⟨before, version⟩
    exact absurd readable.symm (readablePart_ne version)
  · exact parts_eq_of_identity_eq identities equal
  · rcases version_eq_of_identity_eq identities longer with ⟨before, version⟩
    exact absurd readable (readablePart_ne version)

theorem isSafe_digit (number : Nat) : isSafe (Hex.digit number) = true := by
  have reduced : Hex.digit number = Hex.digit (number % 16) := by simp [Hex.digit]
  have small : ∀ value < 16, isSafe (Hex.digit value) = true := by decide
  rw [reduced]
  exact small _ (Nat.mod_lt _ (by decide))

theorem isSafe_of_isDigit {character : Char} (isDigit : character.isDigit = true) :
    isSafe character = true := by
  simp only [Char.isDigit, Bool.and_eq_true, decide_eq_true_eq] at isDigit
  have lowest : '0' ≤ character := isDigit.1
  have highest : character ≤ '9' := isDigit.2
  simp [isSafe, lowest, highest]

theorem isSafe_of_mem_fileNameText {character : Char}
    (characterMem : character ∈ key.fileNameText) : isSafe character = true := by
  have suffix : ∀ other ∈ ['.', 'p', 'n', 'g'], isSafe other = true := by simp [isSafe]
  rw [fileNameText_eq] at characterMem
  rcases List.mem_append.mp characterMem with named | suffixMem
  swap
  · exact suffix _ suffixMem
  simp only [readablePart, digest, Sha256.State.hex, List.mem_append, List.mem_cons,
    List.mem_flatMap, Hex.word, List.mem_map] at named
  rcases named with ((stemMem | rfl | digitMem) | versionMem) | rfl | hexMem
  · exact isSafe_of_mem_sanitize stemMem
  · rfl
  · exact isSafe_of_isDigit (Nat.isDigit_of_mem_toDigits (by decide) (by decide) digitMem)
  · exact isSafe_of_mem_sanitize versionMem
  · rfl
  · rcases hexMem with ⟨word, _, shift, _, rfl⟩
    exact isSafe_digit _

theorem fileName_eq (key : ThumbnailKey) : key.fileName =
    Utf8.encode (key.readablePart ++ '_' :: key.digest) ++ [dot, 0x70, 0x6e, 0x67] := by
  have suffix : Utf8.encode ['.', 'p', 'n', 'g'] = [dot, 0x70, 0x6e, 0x67] := by decide
  rw [fileName, fileNameText_eq, Utf8.encode_append, suffix]

theorem isPlainName_fileName (key : ThumbnailKey) : IsPlainName key.fileName := by
  apply isPlainName_of_length
  · simp [fileName_eq]
  · intro slashMem
    rcases Utf8.character_of_ascii_mem_encode (by decide) slashMem with
      ⟨character, characterMem, number⟩
    obtain rfl : character = '/' := Char.toNat_inj.mp number
    exact absurd (isSafe_of_mem_fileNameText characterMem) (by decide)

end ThumbnailKey

end Thumbnails
