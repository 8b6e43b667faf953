/-! Password hashes and encryption. Argon2 is idealised: a hash keeps its plaintext and
verifies exactly that. AES-256-GCM and scrypt are parameters; the layout of the
encrypted text and base64 are those of the code. -/
namespace CorePlatform

/-- An argon2id hash of `plain` under a random salt. -/
structure Argon2Hash (α : Type) where
  salt : String
  plain : α
  deriving DecidableEq

def verifyPassword {α : Type} [DecidableEq α] (hash : Argon2Hash α) (password : α) : Bool :=
  hash.plain = password

@[simp] theorem verifyPassword_iff {α : Type} [DecidableEq α] (hash : Argon2Hash α) (password : α) :
    verifyPassword hash password = true ↔ hash.plain = password := by
  simp [verifyPassword]

@[simp] theorem verifyPassword_eq_false {α : Type} [DecidableEq α] (hash : Argon2Hash α)
    (password : α) : verifyPassword hash password = false ↔ hash.plain ≠ password := by
  simp [verifyPassword]

/-- `Math.random().toString(36).substring(2, 15)`: at most thirteen characters. -/
abbrev RandomCode := { code : String // code.length ≤ 13 }

/-- `createCipheriv('aes-256-gcm', scryptSync(password, salt, 32), iv)`: the ciphertext
and the authentication tag of a plaintext. -/
structure Cipher where
  encipher : (password : String) → (salt iv : Vector UInt8 16) → List UInt8 →
    List UInt8 × Vector UInt8 16

/-- What the cipher gives for one plaintext. -/
structure Sealing where
  password : String
  salt : Vector UInt8 16
  iv : Vector UInt8 16
  plain : String
  enc : List UInt8
  authTag : Vector UInt8 16

/-- A cipher of known outputs, which leaves every other plaintext as it is under a tag of zeros. -/
def Cipher.known (outputs : List Sealing) : Cipher where
  encipher password salt iv plain :=
    match outputs.find? fun o => o.password = password && o.salt = salt && o.iv = iv &&
        o.plain.toUTF8.toList = plain with
    | some o => (o.enc, o.authTag)
    | none => (plain, .replicate 16 0)

namespace Base64

def digit (n : Nat) : Char :=
  if n < 26 then Char.ofNat (65 + n) else if n < 52 then Char.ofNat (71 + n)
  else if n < 62 then Char.ofNat (n - 4) else if n = 62 then '+' else '/'

def encodeChars : List UInt8 → List Char
  | [] => []
  | [a] => [digit (a.toNat / 4), digit (a.toNat % 4 * 16), '=', '=']
  | [a, b] =>
    [digit (a.toNat / 4), digit (a.toNat % 4 * 16 + b.toNat / 16), digit (b.toNat % 16 * 4), '=']
  | a :: b :: c :: rest =>
    digit (a.toNat / 4) :: digit (a.toNat % 4 * 16 + b.toNat / 16) ::
      digit (b.toNat % 16 * 4 + c.toNat / 64) :: digit (c.toNat % 64) :: encodeChars rest

def encode (bytes : List UInt8) : String := String.ofList (encodeChars bytes)

example : encode [77, 97, 110, 77] = "TWFuTQ==" := by decide

theorem encodeChars_length (bytes : List UInt8) :
    (encodeChars bytes).length = 4 * ((bytes.length + 2) / 3) := by
  induction bytes using encodeChars.induct with
  | case1 => rfl
  | case2 a => simp [encodeChars]
  | case3 a b => simp [encodeChars]
  | case4 a b c rest ih =>
    simp only [encodeChars, List.length_cons, ih]
    omega

theorem encode_length (bytes : List UInt8) :
    (encode bytes).length = 4 * ((bytes.length + 2) / 3) := by
  simp only [encode, String.length_ofList, encodeChars_length]

end Base64

/-- `encrypt`: salt, initialisation vector, tag and ciphertext in base64. -/
def encrypt (cipher : Cipher) (salt iv : Vector UInt8 16) (plainText password : String) : String :=
  let (enc, authTag) := cipher.encipher password salt iv plainText.toUTF8.toList
  Base64.encode (salt.toList ++ iv.toList ++ authTag.toList ++ enc)

/-- Sixteen bytes each of salt, vector and tag come out as at least 64 characters. -/
theorem encrypt_length (cipher : Cipher) (salt iv : Vector UInt8 16) (plainText password : String) :
    64 ≤ (encrypt cipher salt iv plainText password).length := by
  simp only [encrypt, Base64.encode_length, List.length_append, Vector.length_toList]
  omega

end CorePlatform
