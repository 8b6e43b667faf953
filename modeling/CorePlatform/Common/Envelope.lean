import CorePlatform.Async.Record
import CorePlatform.Common.Decryption

/-! `crypto.util` as calls into `crypto`: what is drawn, when a key is derived, and where salt,
vector, tag and ciphertext stand in the text. Scrypt is a function of password, salt and length;
AES-256-GCM undoes what it enciphered under the same key, vector and tag. -/
namespace CorePlatform.CryptoUtil
open Async

def ALGO : String := "aes-256-gcm"
def KEY_LEN : Nat := 32

structure Primitives where
  scryptSync : (password : String) → (salt : List UInt8) → (keyLen : Nat) → Vector UInt8 keyLen
  encipher : (algo : String) → (key : Vector UInt8 KEY_LEN) → (iv plain : List UInt8) →
    List UInt8 × Vector UInt8 16
  decipher : (algo : String) → (key : Vector UInt8 KEY_LEN) → (iv authTag enc : List UInt8) →
    Except String (List UInt8)
  inverts : ∀ key iv plain, decipher ALGO key iv (encipher ALGO key iv plain).2.toList
    (encipher ALGO key iv plain).1 = .ok plain
  /-- `toString('utf8')` of bytes that are no UTF-8. -/
  replaced : List UInt8 → String

/-- Enciphering and deciphering under the key that a password gives. -/
def Primitives.sealing (p : Primitives) : Cipher where
  encipher password salt iv plain :=
    p.encipher ALGO (p.scryptSync password salt.toList KEY_LEN) iv.toList plain

def Primitives.opening (p : Primitives) : Decipher where
  decipher password salt iv authTag enc :=
    p.decipher ALGO (p.scryptSync password salt KEY_LEN) iv authTag enc
  replaced := p.replaced

theorem Primitives.opening_inverts (p : Primitives) : p.opening.Inverts p.sealing :=
  fun _ _ iv plain => p.inverts _ iv.toList plain

/-- The calls into `crypto`, a cipher from its creation to the tag as one. -/
inductive Cmd where
  | randomBytes (size : Nat)
  | scryptSync (password : String) (salt : List UInt8)
  | cipher (algo : String) (key : Vector UInt8 KEY_LEN) (iv plain : List UInt8)
  | decipher (algo : String) (key : Vector UInt8 KEY_LEN) (iv authTag enc : List UInt8)

def Calls : Interface where
  Cmd := Cmd
  Resp
    | .randomBytes size => Vector UInt8 size
    | .scryptSync _ _ => Vector UInt8 KEY_LEN
    | .cipher _ _ _ _ => List UInt8 × Vector UInt8 16
    | .decipher _ _ _ _ _ => List UInt8

/-- Each call draws its own bytes; only `randomBytes` uses them. -/
def Primitives.semantics (p : Primitives) : Semantics Calls Exn Unit where
  Choice := (size : Nat) → Vector UInt8 size
  exec
    | .randomBytes size, drawn, _ => some (.ok (drawn size), ())
    | .scryptSync password salt, _, _ => some (.ok (p.scryptSync password salt KEY_LEN), ())
    | .cipher algo key iv plain, _, _ => some (.ok (p.encipher algo key iv plain), ())
    | .decipher algo key iv authTag enc, _, _ =>
      some ((p.decipher algo key iv authTag enc).mapError (.error none), ())

def encrypt (plainText password : String) : Prog Calls Exn String := do
  let salt : Vector UInt8 16 ← Prog.perform (I := Calls) (.randomBytes 16)
  let key ← Prog.perform (I := Calls) (.scryptSync password salt.toList)
  let iv : Vector UInt8 16 ← Prog.perform (I := Calls) (.randomBytes 16)
  let sealed : List UInt8 × Vector UInt8 16 ← Prog.perform (I := Calls)
    (.cipher ALGO key iv.toList plainText.toUTF8.toList)
  return Base64.encode (salt.toList ++ iv.toList ++ sealed.2.toList ++ sealed.1)

/-- `buf.subarray(start, stop)` -/
def subarray (buf : List UInt8) (start stop : Nat) : List UInt8 := (buf.take stop).drop start

def tooShort : Exn :=
  .error none "Invalid cipher text: too short (expected salt+iv+authTag+enc)"

def decrypt (p : Primitives) (cipherText password : String) : Prog Calls Exn String := do
  let buf := Base64.decode cipherText
  if buf.length < 48 then throw tooShort
  else
    let salt := subarray buf 0 16
    let iv := subarray buf 16 32
    let authTag := subarray buf 32 48
    let enc := buf.drop 48
    let key ← Prog.perform (I := Calls) (.scryptSync password salt)
    let bytes ← Prog.perform (I := Calls) (.decipher ALGO key iv authTag enc)
    return p.opening.toUtf8 bytes

/-- Salt, vector and tag of sixteen bytes each, and the ciphertext behind them. -/
structure Layout (buf salt iv authTag enc : List UInt8) : Prop where
  laid : buf = salt ++ iv ++ authTag ++ enc
  salt : salt.length = 16
  iv : iv.length = 16
  authTag : authTag.length = 16

section Layouts

variable {buf salt iv authTag enc : List UInt8}

theorem subarray_append {before part after : List UInt8} {start stop : Nat}
    (first : before.length = start) (last : start + part.length = stop) :
    subarray (before ++ part ++ after) start stop = part := by
  subst first
  subst last
  rw [subarray, List.take_left' (List.length_append), List.drop_left]

theorem Layout.parts (layout : Layout buf salt iv authTag enc) :
    subarray buf 0 16 = salt ∧ subarray buf 16 32 = iv ∧ subarray buf 32 48 = authTag ∧
      buf.drop 48 = enc := by
  obtain ⟨rfl, saltSize, ivSize, tagSize⟩ := layout
  have twice : (salt ++ iv).length = 32 := by rw [List.length_append, saltSize, ivSize]
  have thrice : (salt ++ iv ++ authTag).length = 48 := by rw [List.length_append, twice, tagSize]
  refine ⟨?_, ?_, ?_, ?_⟩
  · rw [List.append_assoc, List.append_assoc]
    exact List.take_left' saltSize
  · rw [List.append_assoc]
    exact subarray_append saltSize (by rw [ivSize])
  · exact subarray_append twice (by rw [tagSize])
  · exact List.drop_left' thrice

/-- A buffer is laid out in one way. -/
theorem Layout.unique {salt' iv' authTag' enc' : List UInt8}
    (layout : Layout buf salt iv authTag enc) (other : Layout buf salt' iv' authTag' enc') :
    salt = salt' ∧ iv = iv' ∧ authTag = authTag' ∧ enc = enc' := by
  obtain ⟨rfl, rfl, rfl, rfl⟩ := layout.parts
  exact other.parts

theorem layout_of_long (long : 48 ≤ buf.length) : Layout buf (subarray buf 0 16)
    (subarray buf 16 32) (subarray buf 32 48) (buf.drop 48) where
  laid := by
    have joined (start stop : Nat) (ordered : start ≤ stop) :
        buf.take start ++ subarray buf start stop = buf.take stop := by
      rw [subarray, ← Nat.min_eq_left ordered, ← List.take_take, Nat.min_eq_left ordered,
        List.take_append_drop]
    rw [show subarray buf 0 16 = buf.take 16 from rfl, joined 16 32 (by decide),
      joined 32 48 (by decide), List.take_append_drop]
  salt := by
    simp only [subarray, List.length_drop, List.length_take]
    omega
  iv := by
    simp only [subarray, List.length_drop, List.length_take]
    omega
  authTag := by
    simp only [subarray, List.length_drop, List.length_take]
    omega

theorem Layout.long (layout : Layout buf salt iv authTag enc) : 48 ≤ buf.length := by
  obtain ⟨rfl, saltSize, ivSize, tagSize⟩ := layout
  simp only [List.length_append]
  omega

end Layouts

/-- The commands of an execution. -/
def commands {p : Primitives} (steps : List (Taken p.semantics)) : List Cmd := steps.map (·.cmd)

/-- The random bytes of an execution, in the order of their draws. -/
def drawn {p : Primitives} (steps : List (Taken p.semantics)) : List (List UInt8) :=
  steps.filterMap fun
    | ⟨.randomBytes _, _, .ok bytes⟩ => some bytes.toList
    | _ => none

/-- What `decrypt` calls for a text of these parts: no key is derived but from the salt. -/
def openingCalls (p : Primitives) (password : String) (salt iv authTag enc : List UInt8) :
    List Cmd :=
  [.scryptSync password salt,
    .decipher ALGO (p.scryptSync password salt KEY_LEN) iv authTag enc]

section Executions

variable {p : Primitives} {password : String}

/-- An execution of `encrypt` draws salt and vector, and gives what they make of the text. -/
theorem encrypt_executes {plainText : String} {steps : List (Taken p.semantics)}
    {r : Except Exn String}
    (execution : Executes p.semantics (encrypt plainText password) () steps r ()) :
    ∃ salt iv : Vector UInt8 16,
      r = .ok (CorePlatform.encrypt p.sealing salt iv plainText password) ∧
      drawn steps = [salt.toList, iv.toList] ∧
      commands steps = [.randomBytes 16, .scryptSync password salt.toList, .randomBytes 16,
        .cipher ALGO (p.scryptSync password salt.toList KEY_LEN) iv.toList
          plainText.toUTF8.toList] := by
  obtain ⟨salted, salt, _, _, rfl, executed, execution⟩ := executes_await execution
  cases executed
  obtain ⟨derived, key, _, _, rfl, executed, execution⟩ := executes_await execution
  cases executed
  obtain ⟨vectored, iv, _, _, rfl, executed, execution⟩ := executes_await execution
  cases executed
  obtain ⟨_, enciphered, _, _, rfl, executed, execution⟩ := executes_await execution
  cases executed
  cases execution
  exact ⟨salted 16, vectored 16, rfl, rfl, rfl⟩

/-- Every salt and every vector can be drawn. -/
theorem encrypt_draws (plainText : String) (salt iv : Vector UInt8 16) :
    ∃ steps, drawn steps = [salt.toList, iv.toList] ∧
      Executes p.semantics (encrypt plainText password) () steps
        (.ok (CorePlatform.encrypt p.sealing salt iv plainText password)) () := by
  have any (bytes : Vector UInt8 16) : ∃ draw : (size : Nat) → Vector UInt8 size,
      draw 16 = bytes := ⟨fun size => .ofFn fun i => bytes.toArray.getD i 0, by ext; simp⟩
  obtain ⟨salted, rfl⟩ := any salt
  obtain ⟨vectored, rfl⟩ := any iv
  have recorded : (encrypt plainText password).record p.semantics ()
      [salted, salted, vectored, vectored] = some (_, .ok (CorePlatform.encrypt p.sealing
        (salted 16) (vectored 16) plainText password), ()) := rfl
  exact ⟨_, rfl, executes_record recorded⟩

/-- A text that decodes to less than salt, vector and tag is refused before any call. -/
theorem decrypt_short {cipherText : String} (short : (Base64.decode cipherText).length < 48) :
    decrypt p cipherText password = throw tooShort := if_pos short

theorem decrypt_of_long {d : Decipher} {cipherText : String}
    (long : 48 ≤ (Base64.decode cipherText).length) :
    CorePlatform.decrypt d cipherText password =
      ((d.decipher password (subarray (Base64.decode cipherText) 0 16)
        (subarray (Base64.decode cipherText) 16 32) (subarray (Base64.decode cipherText) 32 48)
        ((Base64.decode cipherText).drop 48)).map d.toUtf8).mapError (.error none) := by
  rw [CorePlatform.decrypt, if_neg (Nat.not_lt.mpr long)]
  simp only [subarray, List.drop_zero, List.take_drop, Nat.reduceAdd]
  generalize d.decipher password _ _ _ _ = result
  cases result with
  | ok bytes => rfl
  | error message => rfl

/-- A longer text is split as `encrypt` lays it out: the salt derives the key, and vector, tag
and ciphertext are deciphered under it. -/
theorem decrypt_long {cipherText : String} {salt iv authTag enc : List UInt8}
    {steps : List (Taken p.semantics)} {r : Except Exn String}
    (layout : Layout (Base64.decode cipherText) salt iv authTag enc)
    (execution : Executes p.semantics (decrypt p cipherText password) () steps r ()) :
    r = CorePlatform.decrypt p.opening cipherText password ∧
    commands steps = openingCalls p password salt iv authTag enc := by
  obtain ⟨rfl, rfl, rfl, rfl⟩ := layout.parts
  have long : ¬ (Base64.decode cipherText).length < 48 := Nat.not_lt.mpr layout.long
  simp only [decrypt, if_neg long] at execution
  obtain ⟨_, key, _, _, rfl, executed, execution⟩ := executes_await execution
  cases executed
  obtain ⟨_, deciphered, _, _, rfl, executed, execution⟩ := executes_await execution
  cases executed
  rw [decrypt_of_long (Nat.le_of_not_lt long)]
  have opened : p.opening.decipher password (subarray (Base64.decode cipherText) 0 16)
      (subarray (Base64.decode cipherText) 16 32) (subarray (Base64.decode cipherText) 32 48)
      ((Base64.decode cipherText).drop 48) = p.decipher ALGO
        (p.scryptSync password (subarray (Base64.decode cipherText) 0 16) KEY_LEN)
        (subarray (Base64.decode cipherText) 16 32) (subarray (Base64.decode cipherText) 32 48)
        ((Base64.decode cipherText).drop 48) := rfl
  rw [opened]
  generalize p.decipher ALGO _ _ _ _ = result at execution ⊢
  cases result with
  | ok bytes =>
    cases execution
    exact ⟨rfl, rfl⟩
  | error message =>
    cases execution
    exact ⟨rfl, rfl⟩

theorem encrypt_layout (plainText : String) (salt iv : Vector UInt8 16) {enc : List UInt8}
    {authTag : Vector UInt8 16}
    (sealed : p.encipher ALGO (p.scryptSync password salt.toList KEY_LEN) iv.toList
      plainText.toUTF8.toList = (enc, authTag)) :
    Layout (Base64.decode (CorePlatform.encrypt p.sealing salt iv plainText password))
      salt.toList iv.toList authTag.toList enc where
  laid := by
    have enciphered : p.sealing.encipher password salt iv plainText.toUTF8.toList =
      (enc, authTag) := sealed
    simp only [CorePlatform.encrypt, enciphered, Base64.decode_encode]
  salt := salt.length_toList
  iv := iv.length_toList
  authTag := authTag.length_toList

theorem executes_total {α : Type} (body : Prog Calls Exn α) :
    ∃ steps r, Executes p.semantics body () steps r () := by
  induction body with
  | done r => exact ⟨[], r, .done⟩
  | await c k ih =>
    have answered : ∃ out,
        p.semantics.exec c (fun size => .replicate size 0) () = some (out, ()) := by
      cases c with
      | _ => exact ⟨_, rfl⟩
    obtain ⟨out, answered⟩ := answered
    obtain ⟨steps, r, execution⟩ := ih out
    exact ⟨_, r, .await answered execution⟩

/-- A text that an execution of `encrypt` has given: the parts as they were drawn and
enciphered, and every execution of `decrypt` on it. -/
structure Sealed (p : Primitives) (password plainText text : String) (salt iv : List UInt8) :
    Prop where
  split : ∃ (authTag : Vector UInt8 16) (enc : List UInt8),
    p.encipher ALGO (p.scryptSync password salt KEY_LEN) iv plainText.toUTF8.toList =
      (enc, authTag) ∧ Layout (Base64.decode text) salt iv authTag.toList enc ∧
    ∀ steps r, Executes p.semantics (decrypt p text password) () steps r () →
      commands steps = openingCalls p password salt iv authTag.toList enc
  undone : ∀ steps r, Executes p.semantics (decrypt p text password) () steps r () →
    r = .ok plainText

theorem sealed_encrypt (plainText : String) (salt iv : Vector UInt8 16) :
    Sealed p password plainText (CorePlatform.encrypt p.sealing salt iv plainText password)
      salt.toList iv.toList where
  split := by
    obtain ⟨⟨enc, authTag⟩, enciphered⟩ : ∃ sealed, p.encipher ALGO
      (p.scryptSync password salt.toList KEY_LEN) iv.toList plainText.toUTF8.toList = sealed :=
        ⟨_, rfl⟩
    have layout := encrypt_layout plainText salt iv enciphered
    exact ⟨authTag, enc, enciphered, layout, fun _ _ execution => (decrypt_long layout execution).2⟩
  undone := by
    intro steps r execution
    have layout : Layout
        (Base64.decode (CorePlatform.encrypt p.sealing salt iv plainText password)) _ _ _ _ :=
      encrypt_layout plainText salt iv rfl
    rw [(decrypt_long layout execution).1]
    exact decrypt_encrypt p.opening_inverts salt iv plainText password

end Executions

/-- `decrypt` undoes `encrypt` for every text, password, salt and vector; what is too short is
refused before any call; what is longer is split as `encrypt` lays it out. -/
theorem decrypt_undoes_encrypt (p : Primitives) (password : String) :
    (∀ (plainText : String) (salt iv : Vector UInt8 16), ∃ steps text,
      drawn steps = [salt.toList, iv.toList] ∧
        Executes p.semantics (encrypt plainText password) () steps (.ok text) ()) ∧
    (∀ plainText steps r, Executes p.semantics (encrypt plainText password) () steps r () →
      ∃ salt iv text, drawn steps = [salt, iv] ∧ r = .ok text ∧
        Sealed p password plainText text salt iv) ∧
    (∀ cipherText, (Base64.decode cipherText).length < 48 → ∀ steps r,
      Executes p.semantics (decrypt p cipherText password) () steps r () →
        commands steps = [] ∧ r = .error tooShort) ∧
    (∀ cipherText, 48 ≤ (Base64.decode cipherText).length → ∃ salt iv authTag enc,
      Layout (Base64.decode cipherText) salt iv authTag enc ∧
        ∀ steps r, Executes p.semantics (decrypt p cipherText password) () steps r () →
          commands steps = openingCalls p password salt iv authTag enc) ∧
    (∀ cipherText, ∃ steps r,
      Executes p.semantics (decrypt p cipherText password) () steps r ()) := by
  refine ⟨?_, ?_, ?_, ?_, ?_⟩
  · intro plainText salt iv
    obtain ⟨steps, draws, execution⟩ := encrypt_draws plainText salt iv
    exact ⟨steps, _, draws, execution⟩
  · intro plainText steps r execution
    obtain ⟨salt, iv, result, draws, -⟩ := encrypt_executes execution
    exact ⟨_, _, _, draws, result, sealed_encrypt plainText salt iv⟩
  · intro cipherText short steps r execution
    rw [decrypt_short short] at execution
    obtain ⟨result, -⟩ := executes_done execution
    cases execution
    exact ⟨rfl, result⟩
  · intro cipherText long
    have layout := layout_of_long long
    exact ⟨_, _, _, _, layout, fun _ _ execution => (decrypt_long layout execution).2⟩
  · exact fun cipherText => executes_total _

/-- What scrypt derives from the salt of ones, and AES-256-GCM makes of a code under it. -/
def knownKey : Vector UInt8 KEY_LEN :=
  #v[16, 133, 102, 52, 53, 79, 251, 13, 116, 156, 42, 127, 145, 78, 42, 182, 150, 228, 252, 25,
    246, 51, 222, 62, 94, 172, 166, 137, 101, 72, 87, 223]

def knownSealing : Sealing where
  password := "change-encrypt"
  salt := .replicate 16 1
  iv := .replicate 16 2
  plain := "k3x9q0v7tz1"
  enc := [119, 124, 241, 2, 100, 163, 93, 6, 22, 51, 113]
  authTag := #v[208, 160, 115, 10, 110, 87, 248, 36, 238, 137, 82, 90, 64, 104, 248, 209]

/-- Primitives of one known output each, which leave every other plaintext as it is under a tag of
zeros. -/
def known : Primitives where
  scryptSync password salt _ :=
    let derived := password = knownSealing.password ∧ salt = knownSealing.salt.toList
    .ofFn fun i => if derived then knownKey.toList.getD i 0 else 0
  encipher _ key iv plain :=
    if key = knownKey ∧ iv = knownSealing.iv.toList ∧ plain = knownSealing.plain.toUTF8.toList then
      (knownSealing.enc, knownSealing.authTag)
    else (plain, .replicate 16 0)
  decipher _ key iv authTag enc :=
    if authTag = List.replicate 16 0 then .ok enc
    else if key = knownKey ∧ iv = knownSealing.iv.toList ∧
        authTag = knownSealing.authTag.toList ∧ enc = knownSealing.enc then
      .ok knownSealing.plain.toUTF8.toList
    else .error "Unsupported state or unable to authenticate data"
  inverts key iv plain := by
    by_cases output : key = knownKey ∧ iv = knownSealing.iv.toList ∧
      plain = knownSealing.plain.toUTF8.toList
    · obtain ⟨rfl, rfl, rfl⟩ := output
      simp only [and_self, if_true]
      exact if_neg (by decide)
    · rw [if_neg output]
      exact if_pos Vector.toList_replicate
  replaced _ := "\ufffd"

-- The least buffer that is not too short holds the empty text.
example : (Base64.decode (CorePlatform.encrypt known.sealing (.replicate 16 1)
    (.replicate 16 2) "" "key")).length = 48 := by decide +kernel

theorem decrypt_undoes_encrypt_known : ∃ steps,
    drawn steps = [List.replicate 16 1, List.replicate 16 2] ∧
    Executes known.semantics (encrypt "k3x9q0v7tz1" "change-encrypt") () steps
      (.ok "AQEBAQEBAQEBAQEBAQEBAQICAgICAgICAgICAgICAgLQoHMKblf4JO6JUlpAaPjRd3zxAmSjXQYWM3E=") () ∧
    ∀ opening r, Executes known.semantics (decrypt known
        "AQEBAQEBAQEBAQEBAQEBAQICAgICAgICAgICAgICAgLQoHMKblf4JO6JUlpAaPjRd3zxAmSjXQYWM3E="
        "change-encrypt") () opening r () → r = .ok "k3x9q0v7tz1" := by
  have text : CorePlatform.encrypt known.sealing (.replicate 16 1) (.replicate 16 2) "k3x9q0v7tz1"
      "change-encrypt" =
      "AQEBAQEBAQEBAQEBAQEBAQICAgICAgICAgICAgICAgLQoHMKblf4JO6JUlpAaPjRd3zxAmSjXQYWM3E=" := by
    decide +kernel
  obtain ⟨steps, draws, execution⟩ := @encrypt_draws known "change-encrypt" "k3x9q0v7tz1"
    (.replicate 16 1) (.replicate 16 2)
  rw [text] at execution
  obtain ⟨_, encrypted, -⟩ := decrypt_undoes_encrypt known "change-encrypt"
  obtain ⟨_, _, _, _, same, whole⟩ := encrypted _ _ _ execution
  rw [← Except.ok.inj same] at whole
  exact ⟨steps, draws, execution, whole.undone⟩

end CorePlatform.CryptoUtil
