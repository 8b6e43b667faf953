import Mathlib.Data.List.Defs

/-! The string formats of zod that the schemas of events and jobs ask for, and identifiers as
`@default(uuid())` draws them. -/
namespace CorePlatform

namespace Zod

def isLetter (c : Char) : Bool := ('a' ≤ c && c ≤ 'z') || ('A' ≤ c && c ≤ 'Z')

def isHex (c : Char) : Bool := c.isDigit || ('a' ≤ c && c ≤ 'f') || ('A' ≤ c && c ≤ 'F')

/-- The groups of a UUID of a version from 1 to 8 and the variant of RFC 9562. -/
def uuidGroups : List (List Char) → Bool
  | [timeLow, timeMid, version, variant, node] =>
    [timeLow, timeMid, version, variant, node].all (·.all isHex) &&
      [timeLow, timeMid, version, variant, node].map List.length = [8, 4, 4, 4, 12] &&
      version.head?.any (fun c => '1' ≤ c && c ≤ '8') &&
      variant.head?.any ['8', '9', 'a', 'b', 'A', 'B'].contains
  | _ => false

/-- `z.string().uuid()`, which also takes the UUIDs of all zeros and of all ones. -/
def uuid (text : String) : Bool :=
  uuidGroups (text.toList.splitOn '-') || text = "00000000-0000-0000-0000-000000000000" ||
    text = "ffffffff-ffff-ffff-ffff-ffffffffffff"

def apostrophe : Char := Char.ofNat 39

/-- What may stand in the middle of the part before the `@`. -/
def isLocal (c : Char) : Bool :=
  isLetter c || c.isDigit || ['_', apostrophe, '+', '-', '.'].contains c

/-- A part of the domain before a dot. -/
def domainLabel : List Char → Bool
  | c :: rest => (isLetter c || c.isDigit) && rest.all fun c => isLetter c || c.isDigit || c = '-'
  | [] => false

/-- `z.string().email()`: no dot at either end of the part before the `@`, no two dots in a row, and
at least two parts of the domain, the last of letters. -/
def email (text : String) : Bool :=
  match text.toList.splitOn '@' with
  | [account, domain] =>
    account.all isLocal && account.getLast?.any (· ≠ apostrophe) &&
      (account.splitOn '.').all (· ≠ []) &&
      match (domain.splitOn '.').reverse with
      | top :: label :: labels =>
        2 ≤ top.length && top.all isLetter && (label :: labels).all domainLabel
      | _ => false
  | _ => false

example : email "alice@mail.com" = true ∧ email "alice@mail" = false := by decide

end Zod

/-! Identifiers for samples: of users, roles, permissions, sessions, devices, codes and
notifications. -/

@[match_pattern] abbrev aliceId : String := "3f0c7a52-9d41-4be6-8a17-5c2e9b60d1f4"
abbrev bobId : String := "b7d8e6a4-52c3-4f19-9be0-1a6d7c40f582"
abbrev carolId : String := "40878dcf-4dbd-4c24-83a9-dfc6e45c7fdc"
abbrev ghostId : String := "37cebdcb-090c-46e7-a04a-86d2628f8d0d"

abbrev refunderId : String := "0832c8cd-1999-4b7e-bad7-f1c135e9e3b9"
abbrev editorId : String := "abe72c93-09e3-4c60-80db-d0b9b7e997b4"
abbrev auditorId : String := "528f1378-87a0-494a-80b9-2a8553be5df1"
abbrev adminId : String := "161f96f2-0b14-4d1e-abdb-0daeaff68f8b"

abbrev refundId : String := "9d144370-0333-4e07-8271-30b4fa0575ff"
abbrev cancelId : String := "98f70d6c-fb30-4371-9ba0-3288a825b6b6"
abbrev manageId : String := "1ca3d969-3acd-496b-a5a3-3c88c9dc5795"

abbrev sessionId1 : String := "03f46d31-7c93-42d2-b96f-811400c6b316"
abbrev sessionId2 : String := "6bd07ebc-24e7-47f8-8827-f283cf3c2de1"
abbrev sessionId3 : String := "62ca9f91-88a2-46bb-9a16-d25157f90371"
@[match_pattern] abbrev laptopId : String := "cbd9b2ad-d630-4579-bc8a-2676293b66ac"
abbrev phoneId : String := "78e551c3-190b-4c7a-a0a3-5f5925ad8a47"
abbrev otpId1 : String := "5392bf21-133c-4b63-ac6f-8b80be8ba6d3"
abbrev resetId1 : String := "09c7e131-78e0-41f4-b642-4171fc8413a4"
abbrev resetId2 : String := "ea1811ad-c4dd-47a2-9eaf-d7d9d5555688"
abbrev noticeId : String := "7a0e5b1c-28c4-4f0d-9d37-0b6f1c9a4e52"

/-! Salts as argon2 draws them, in base64. -/

abbrev argonSalt0 : String := "c2FsdC1udW1iZXItMDAwMA"
abbrev argonSalt1 : String := "c2FsdC1udW1iZXItMDAwMQ"
abbrev argonSalt2 : String := "c2FsdC1udW1iZXItMDAwMg"
abbrev argonSalt3 : String := "c2FsdC1udW1iZXItMDAwMw"

/-! Tokens as `jwt.sign` makes them at the time 0: of the gateway under `internal-secret`, of
Alice and Bob under `user-secret`, and one of Alice by another issuer. -/

/-- The header of a token signed with HS256. -/
def jwtHeader : String := "eyJhbGciOiJIUzI1NiIsInR5cCI6IkpXVCJ9"

def gatewayToken : String :=
  jwtHeader ++
    ".eyJzdWIiOiJnYXRld2F5IiwiZGF0YSI6e30sImlhdCI6MCwiZXhwIjozMDAsImF1ZCI6ImludGVybmFsIiwiaXNzIj" ++
    "oiZ2F0ZXdheSJ9" ++
    ".DtZkabW361Bvbg-baETd1HPqbNfZ-WitgZC1OCe9zho"

def aliceToken : String :=
  jwtHeader ++
    ".eyJzdWIiOiIzZjBjN2E1Mi05ZDQxLTRiZTYtOGExNy01YzJlOWI2MGQxZjQiLCJlbWFpbCI6ImFsaWNlQG1haWwuY2" ++
    "9tIiwicGVybVZlcnNpb24iOjEsImlhdCI6MCwiZXhwIjo5MDAsImF1ZCI6ImFwaSIsImlzcyI6ImF1dGgtc2Vydmlj" ++
    "ZSJ9" ++
    ".sNFVgOwK4064eaEa7fq1GFVmY4rZzAMr3aBnq0WPbFA"

def bobToken : String :=
  jwtHeader ++
    ".eyJzdWIiOiJiN2Q4ZTZhNC01MmMzLTRmMTktOWJlMC0xYTZkN2M0MGY1ODIiLCJlbWFpbCI6ImJvYkBtYWlsLmNvbS" ++
    "IsInBlcm1WZXJzaW9uIjoxLCJpYXQiOjAsImV4cCI6OTAwLCJhdWQiOiJhcGkiLCJpc3MiOiJhdXRoLXNlcnZpY2Ui" ++
    "fQ" ++
    ".sF-RJu6jxlaCCLeM6-wt0ty2ywh2hURIVC76QBHJqYg"

def partnerToken : String :=
  jwtHeader ++
    ".eyJzdWIiOiIzZjBjN2E1Mi05ZDQxLTRiZTYtOGExNy01YzJlOWI2MGQxZjQiLCJlbWFpbCI6ImFsaWNlQG1haWwuY2" ++
    "9tIiwicGVybVZlcnNpb24iOjEsImlhdCI6MCwiZXhwIjo5MDAsImF1ZCI6ImFwaSIsImlzcyI6InBhcnRuZXIifQ" ++
    ".Ta6G4mTDhAbARDjWOwqQvQYQW8NSsky8HCmtl0RrRa0"

end CorePlatform
