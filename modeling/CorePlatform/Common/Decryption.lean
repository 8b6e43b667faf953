import CorePlatform.Common.Errors
import CorePlatform.Common.Security
import Mathlib.Data.List.Nodup

/-! `decrypt`: it reads base64, splits off salt, vector and tag, and undoes `encrypt` under
the same password. -/
namespace CorePlatform

namespace Base64

/-- The value of a digit, of either alphabet. -/
def value? (c : Char) : Option Nat :=
  if 'A' ≤ c ∧ c ≤ 'Z' then some (c.toNat - 65) else if 'a' ≤ c ∧ c ≤ 'z' then some (c.toNat - 71)
  else if '0' ≤ c ∧ c ≤ '9' then some (c.toNat + 4) else if c = '+' ∨ c = '-' then some 62
  else if c = '/' ∨ c = '_' then some 63 else none

def decodeValues : List Nat → List UInt8
  | a :: b :: c :: d :: rest =>
    .ofNat (a * 4 + b / 16) :: .ofNat (b % 16 * 16 + c / 4) ::
      .ofNat (c % 4 * 64 + d) :: decodeValues rest
  | [a, b, c] => [.ofNat (a * 4 + b / 16), .ofNat (b % 16 * 16 + c / 4)]
  | [a, b] => [.ofNat (a * 4 + b / 16)]
  | _ => []

/-- `Buffer.from(text, 'base64')`: what is no digit is skipped, and the padding ends it. This is for
texts of characters up to U+00FF; of others Node reads the low byte as if it were the character. -/
def decode (text : String) : List UInt8 :=
  decodeValues ((text.toList.takeWhile (· ≠ '=')).filterMap value?)

example : decode "TWFuTQ==" = [77, 97, 110, 77] := by decide

/-- The values of the digits of an encoding. -/
def values : List UInt8 → List Nat
  | [] => []
  | [a] => [a.toNat / 4, a.toNat % 4 * 16]
  | [a, b] => [a.toNat / 4, a.toNat % 4 * 16 + b.toNat / 16, b.toNat % 16 * 4]
  | a :: b :: c :: rest => a.toNat / 4 :: (a.toNat % 4 * 16 + b.toNat / 16) ::
      (b.toNat % 16 * 4 + c.toNat / 64) :: c.toNat % 64 :: values rest

theorem values_lt (bytes : List UInt8) : ∀ n ∈ values bytes, n < 64 := by
  induction bytes using values.induct with
  | case1 => exact fun n found => absurd found List.not_mem_nil
  | case2 a =>
    have := a.toNat_lt
    simp only [values, List.forall_mem_cons, List.not_mem_nil, false_imp_iff,
      implies_true, and_true]
    omega
  | case3 a b =>
    have := a.toNat_lt
    have := b.toNat_lt
    simp only [values, List.forall_mem_cons, List.not_mem_nil, false_imp_iff,
      implies_true, and_true]
    omega
  | case4 a b c rest ih =>
    have := a.toNat_lt
    have := b.toNat_lt
    have := c.toNat_lt
    simp only [values, List.forall_mem_cons]
    refine ⟨?_, ?_, ?_, ?_, ih⟩ <;> omega

/-- An encoding is the digits of its values, with padding behind them. -/
theorem encodeChars_eq (bytes : List UInt8) :
    ∃ n, encodeChars bytes = (values bytes).map digit ++ List.replicate n '=' := by
  induction bytes using values.induct with
  | case1 => exact ⟨0, rfl⟩
  | case2 a => exact ⟨2, rfl⟩
  | case3 a b => exact ⟨1, rfl⟩
  | case4 a b c rest ih =>
    obtain ⟨n, same⟩ := ih
    exact ⟨n, by simp only [encodeChars, values, same, List.map_cons, List.cons_append]⟩

theorem value?_digit (n : Nat) (small : n < 64) : value? (digit n) = some n ∧ digit n ≠ '=' := by
  have table : ∀ n : Fin 64, value? (digit n) = some n.val ∧ digit n ≠ '=' := by decide
  exact table ⟨n, small⟩

theorem decodeValues_values (bytes : List UInt8) : decodeValues (values bytes) = bytes := by
  have byte : ∀ (a : UInt8) (n : Nat), n = a.toNat → UInt8.ofNat n = a := by
    rintro a _ rfl
    exact UInt8.ofNat_toNat
  induction bytes using values.induct with
  | case1 => rfl
  | case2 a =>
    have := a.toNat_lt
    simp only [values, decodeValues]
    rw [byte a _ (by omega)]
  | case3 a b =>
    have := a.toNat_lt
    have := b.toNat_lt
    simp only [values, decodeValues]
    rw [byte a _ (by omega), byte b _ (by omega)]
  | case4 a b c rest ih =>
    have := a.toNat_lt
    have := b.toNat_lt
    have := c.toNat_lt
    simp only [values, decodeValues, ih]
    rw [byte a _ (by omega), byte b _ (by omega), byte c _ (by omega)]

theorem takeWhile_digits {ns : List Nat} (small : ∀ n ∈ ns, n < 64) (padding : Nat) :
    ((ns.map digit ++ List.replicate padding '=').takeWhile (· ≠ '=')).filterMap value? = ns := by
  induction ns with
  | nil => cases padding <;> rfl
  | cons n ns ih =>
    obtain ⟨value, digit⟩ := value?_digit n (small n List.mem_cons_self)
    have rest := ih fun m found => small m (List.mem_cons_of_mem n found)
    simp only [List.map_cons, List.cons_append, List.takeWhile_cons, digit, ne_eq,
      not_false_eq_true, decide_true, if_true, List.filterMap_cons, value]
    exact congrArg _ rest

theorem decode_encode (bytes : List UInt8) : decode (encode bytes) = bytes := by
  obtain ⟨n, same⟩ := encodeChars_eq bytes
  rw [decode, encode, String.toList_ofList, same, takeWhile_digits (values_lt bytes) n,
    decodeValues_values]

end Base64

/-- `createDecipheriv` under the same algorithm, and the text that `toString('utf8')` makes
of bytes that are no UTF-8. -/
structure Decipher where
  decipher : (password : String) → (salt iv authTag enc : List UInt8) → Except String (List UInt8)
  replaced : List UInt8 → String

def Decipher.toUtf8 (d : Decipher) (bytes : List UInt8) : String :=
  (String.fromUTF8? bytes.toByteArray).getD (d.replaced bytes)

/-- AES-GCM: what was enciphered is deciphered with the password, salt, vector and tag. -/
def Decipher.Inverts (d : Decipher) (cipher : Cipher) : Prop :=
  ∀ password salt iv plain, d.decipher password salt.toList iv.toList
    (cipher.encipher password salt iv plain).2.toList
    (cipher.encipher password salt iv plain).1 = .ok plain

/-- The other side of `Cipher.known`. -/
def Decipher.known (outputs : List Sealing) : Decipher where
  decipher password salt iv authTag enc :=
    match outputs.find? fun o => o.password = password && o.salt.toList = salt &&
        o.iv.toList = iv && o.authTag.toList = authTag && o.enc = enc with
    | some o => .ok o.plain.toUTF8.toList
    | none =>
      if authTag = List.replicate 16 0 then .ok enc
      else .error "Unsupported state or unable to authenticate data"
  replaced _ := "\ufffd"

/-- Known outputs are told apart by their tags, none of which is the tag of zeros. -/
theorem known_inverts {outputs : List Sealing}
    (tags : (Vector.replicate 16 0 :: outputs.map Sealing.authTag).Nodup) :
    (Decipher.known outputs).Inverts (Cipher.known outputs) := by
  obtain ⟨tagged, distinct⟩ := List.nodup_cons.mp tags
  intro password salt iv plain
  simp only [Cipher.known]
  cases listed : outputs.find? fun o => o.password = password && o.salt = salt && o.iv = iv &&
      o.plain.toUTF8.toList = plain with
  | some o =>
    have member := List.mem_of_find?_eq_some listed
    have same := List.find?_some listed
    simp only [Bool.and_eq_true, decide_eq_true_eq] at same
    obtain ⟨⟨⟨rfl, rfl⟩, rfl⟩, rfl⟩ := same
    cases opened : outputs.find? fun o' => o'.password = o.password &&
        o'.salt.toList = o.salt.toList && o'.iv.toList = o.iv.toList &&
        o'.authTag.toList = o.authTag.toList && o'.enc = o.enc with
    | some o' =>
      have same := List.find?_some opened
      simp only [Bool.and_eq_true, decide_eq_true_eq] at same
      have one : o' = o := List.inj_on_of_nodup_map distinct (List.mem_of_find?_eq_some opened)
        member (Vector.toList_inj.mp same.1.2)
      simp only [Decipher.known, opened, one]
    | none => simpa using List.find?_eq_none.mp opened o member
  | none =>
    cases opened : outputs.find? fun o => o.password = password && o.salt.toList = salt.toList &&
        o.iv.toList = iv.toList && o.authTag.toList = List.replicate 16 0 && o.enc = plain with
    | some o =>
      have same := List.find?_some opened
      simp only [Bool.and_eq_true, decide_eq_true_eq] at same
      have zeros : o.authTag = .replicate 16 0 :=
        Vector.toList_inj.mp (same.1.2.trans Vector.toList_replicate.symm)
      exact absurd (List.mem_map.mpr ⟨o, List.mem_of_find?_eq_some opened, zeros⟩) tagged
    | none => simp only [Decipher.known, Vector.toList_replicate, opened, if_true]

def decrypt (d : Decipher) (cipherText password : String) : Except Exn String :=
  let buf := Base64.decode cipherText
  if buf.length < 48 then .error
    (.error none "Invalid cipher text: too short (expected salt+iv+authTag+enc)")
  else
    match d.decipher password (buf.take 16) ((buf.drop 16).take 16)
      ((buf.drop 32).take 16) (buf.drop 48) with
    | .ok bytes => .ok (d.toUtf8 bytes)
    | .error message => .error (.error none message)

theorem toList_loop (bytes : ByteArray) (i : Nat) (read : List UInt8) :
    ByteArray.toList.loop bytes i read = read.reverse ++ bytes.data.toList.drop i := by
  induction left : bytes.size - i generalizing i read with
  | zero =>
    rw [ByteArray.toList.loop, if_neg (by omega), List.drop_of_length_le, List.append_nil]
    rw [Array.length_toList, ByteArray.size_data]
    omega
  | succ n ih =>
    have bound : i < bytes.data.toList.length := by
      rw [Array.length_toList, ByteArray.size_data]
      omega
    have next : bytes.get! i = bytes.data.toList[i] := getElem!_pos bytes.data i bound
    rw [ByteArray.toList.loop, if_pos (by omega), ih (i + 1) _ (by omega), next,
      List.drop_eq_getElem_cons bound, List.reverse_cons, List.append_assoc, List.singleton_append]

theorem toUtf8_toUTF8 (d : Decipher) (text : String) : d.toUtf8 text.toUTF8.toList = text := by
  have bytes : text.toUTF8.toList = text.toByteArray.data.toList := toList_loop text.toUTF8 0 []
  have same : text.toByteArray.data.toList.toByteArray = text.toByteArray := by
    apply ByteArray.ext
    rw [List.data_toByteArray, Array.toArray_toList]
  rw [Decipher.toUtf8, bytes, same, String.fromUTF8?, dif_pos text.isValidUTF8]
  rfl

/-- What is encrypted is read again under the same password. -/
theorem decrypt_encrypt {d : Decipher} {cipher : Cipher} (inverts : d.Inverts cipher)
    (salt iv : Vector UInt8 16) (plainText password : String) :
    decrypt d (encrypt cipher salt iv plainText password) password = .ok plainText := by
  have undone := inverts password salt iv plainText.toUTF8.toList
  have layout : encrypt cipher salt iv plainText password = Base64.encode
      (salt.toList ++ iv.toList ++
      (cipher.encipher password salt iv plainText.toUTF8.toList).2.toList ++
        (cipher.encipher password salt iv plainText.toUTF8.toList).1) := rfl
  rw [layout]
  generalize cipher.encipher password salt iv plainText.toUTF8.toList = enciphered at undone ⊢
  obtain ⟨enc, authTag⟩ := enciphered
  simp only [decrypt, Base64.decode_encode]
  have long : ¬ (salt.toList ++ iv.toList ++ authTag.toList ++ enc).length < 48 := by
    simp only [List.length_append, Vector.length_toList]
    omega
  have taken : (salt.toList ++ iv.toList ++ authTag.toList ++ enc).take 16 = salt.toList := by
    rw [List.append_assoc, List.append_assoc, List.take_left' salt.length_toList]
  have rest : (salt.toList ++ iv.toList ++ authTag.toList ++ enc).drop 16 = iv.toList ++
      authTag.toList ++ enc := by
    rw [List.append_assoc, List.append_assoc, List.drop_left' salt.length_toList, List.append_assoc]
  have vector : (iv.toList ++ authTag.toList ++ enc).take 16 = iv.toList := by
    rw [List.append_assoc, List.take_left' iv.length_toList]
  have rest' : (salt.toList ++ iv.toList ++ authTag.toList ++ enc).drop 32 =
      authTag.toList ++ enc := by
    rw [List.append_assoc, List.drop_left']
    simp only [List.length_append, Vector.length_toList]
  have tag : (authTag.toList ++ enc).take 16 = authTag.toList :=
    List.take_left' authTag.length_toList
  have text : (salt.toList ++ iv.toList ++ authTag.toList ++ enc).drop 48 = enc := by
    rw [List.drop_left']
    simp only [List.length_append, Vector.length_toList]
  rw [if_neg long, taken, rest, vector, rest', tag, text, undone]
  exact congrArg Except.ok (toUtf8_toUTF8 d plainText)

end CorePlatform
