import Mathlib.Data.List.Lex
import Mathlib.Data.String.Basic

/-!
# Texts byte by byte

A database compares texts by their bytes.  An ASCII character is its own byte, so ASCII texts stand in the
order of their characters.
-/

namespace GraphMapping.Text

/-- The bytes of a text in UTF-8. -/
def bytes (text : String) : List UInt8 :=
  text.toByteArray.data.toList

/-- A text stands before another one, byte by byte. -/
def Precedes (a b : String) : Prop :=
  bytes a < bytes b

instance (a b : String) : Decidable (Precedes a b) :=
  inferInstanceAs (Decidable (bytes a < bytes b))

/-- The byte of an ASCII character. -/
def byte (c : Char) : UInt8 :=
  UInt8.ofNat c.toNat

/-- Every character of a text is one of ASCII. -/
def Ascii (cs : List Char) : Prop :=
  ∀ c ∈ cs, c.toNat < 128

instance (cs : List Char) : Decidable (Ascii cs) :=
  List.decidableBAll _ cs

variable {c d : Char} {cs ds : List Char}

theorem not_precedes_self (a : String) : ¬ Precedes a a :=
  List.lt_irrefl (bytes a)

theorem Precedes.asymm {a b : String} (h : Precedes a b) : ¬ Precedes b a :=
  List.lt_asymm h

theorem bytes_ofList (h : Ascii cs) : bytes (String.ofList cs) = cs.map byte := by
  unfold bytes
  rw [String.toByteArray_ofList, List.utf8Encode, List.toList_data_toByteArray]
  induction cs with
  | nil => rfl
  | cons c rest ih =>
      obtain ⟨hHere, hRest⟩ := List.forall_mem_cons.1 h
      have hOne : String.utf8EncodeChar c = [byte c] := if_pos (Nat.le_of_lt_succ hHere)
      rw [List.flatMap_cons, hOne, ih hRest]
      rfl

theorem byte_lt_byte (hd : d.toNat < 128) (h : c < d) : byte c < byte d := by
  have hLess : c.toNat < d.toNat := UInt32.lt_iff_toNat_lt.1 h
  have hByte : ∀ a : Char, a.toNat < 128 → (byte a).toNat = a.toNat := by
    intro a ha
    exact UInt8.toNat_ofNat_of_lt' (Nat.lt_trans ha (by decide))
  rw [UInt8.lt_iff_toNat_lt, hByte c (Nat.lt_trans hLess hd), hByte d hd]
  exact hLess

theorem precedes_of_lt (hcs : Ascii cs) (hds : Ascii ds) (h : cs < ds) :
    Precedes (String.ofList cs) (String.ofList ds) := by
  unfold Precedes
  rw [bytes_ofList hcs, bytes_ofList hds]
  induction h with
  | nil => exact .nil
  | cons _ ih => exact .cons (ih (List.forall_mem_cons.1 hcs).2 (List.forall_mem_cons.1 hds).2)
  | rel hLess => exact .rel (byte_lt_byte (List.forall_mem_cons.1 hds).1 hLess)

/-- Behind the place where two texts of one length differ nothing matters. -/
theorem append_lt_append {front front' : List Char} (h : front < front')
    (hLength : front.length = front'.length) (rest rest' : List Char) :
    front ++ rest < front' ++ rest' := by
  induction h with
  | nil => cases hLength
  | cons _ ih => exact .cons (ih (Nat.succ.inj hLength))
  | rel hLess => exact .rel hLess

end GraphMapping.Text
