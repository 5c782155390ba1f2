/-
# What the bytes of a response mean to an HTTP/1.1 client.
-/
import A2A.Core.StringUtils
import A2A.Foundation.Hexadecimal
import A2A.Foundation.Search
import Mathlib.Data.FinEnum

namespace A2A.Server.Transport.Http11

open A2A.Foundation A2A.Core List

/-! ## Header fields -/

/-- The characters of a field name. -/
def isTokenByte (b : UInt8) : Bool :=
  isDigitByte b || (65 ≤ b && b ≤ 90) || (97 ≤ b && b ≤ 122) ||
    (bytes "!#$%&'*+-.^_`|~").contains b

def IsToken (name : Bytes) : Prop := name ≠ [] ∧ ∀ b ∈ name, isTokenByte b = true

instance (name : Bytes) : Decidable (IsToken name) :=
  inferInstanceAs (Decidable (name ≠ [] ∧ ∀ b ∈ name, isTokenByte b = true))

/-- Optional white space. -/
def isOws (b : UInt8) : Bool := b = 32 || b = 9

/-- A text without white space around it. -/
def trimOws (text : Bytes) : Bytes := (text.dropWhile isOws).rdropWhile isOws

def decodeField (line : Bytes) : Option (Bytes × Bytes) :=
  match breakOn (bytes ":") line with
  | none => none
  | some (name, text) => if IsToken name then some (name, text) else none

def fieldTexts (name : Bytes) (fields : List (Bytes × Bytes)) : List Bytes :=
  (fields.filter fun field => equalsAsciiCaseInsensitive field.1 name).map Prod.snd

/-- Some field with this name lists the token. -/
def listsToken (name token : Bytes) (fields : List (Bytes × Bytes)) : Bool :=
  (fieldTexts name fields).any fun text =>
    (splitOn (bytes ",") text).any fun part => equalsAsciiCaseInsensitive (trimOws part) token

/-! ## Framing -/

/-- How the end of a body is told. -/
inductive Framing where
  | contentLength (size : Nat)
  | chunked
  | closeDelimited
  deriving Repr, DecidableEq

/-- The number in a `Content-Length`. -/
def decodeLength (text : Bytes) : Option Nat :=
  if trimOws text ≠ [] ∧ ∀ b ∈ trimOws text, isDigitByte b = true then some (decimalValue (trimOws text)) else none

/-- The framing that the header fields announce, if it is one and only one. -/
def decodeFraming (fields : List (Bytes × Bytes)) : Option Framing :=
  match fieldTexts "transfer-encoding" fields, fieldTexts "content-length" fields with
  | [], [] => some .closeDelimited
  | [], text :: texts =>
    match decodeLength text with
    | none => none
    | some size => if ∀ other ∈ texts, decodeLength other = some size then some (.contentLength size) else none
  | [coding], [] => if equalsAsciiCaseInsensitive (trimOws coding) "chunked" then some .chunked else none
  | _, _ => none

/-- The chunks of a body, up to the one of size zero, with no trailers. -/
def decodeChunks : Nat → Bytes → Option Bytes
  | 0, _ => none
  | fuel + 1, text =>
    match breakOn [13, 10] text with
    | none => none
    | some (sizeText, rest) =>
      match hexValue sizeText with
      | none => none
      | some size =>
        if size = 0 then if rest = [13, 10] then some [] else none
        else if size ≤ rest.length ∧ (rest.drop size).take 2 = [13, 10] then
          (decodeChunks fuel (rest.drop (size + 2))).map fun body => rest.take size ++ body
        else none

def decodeBody (framing : Framing) (text : Bytes) : Option Bytes :=
  match framing with
  | .contentLength size => if text.length = size then some text else none
  | .chunked => decodeChunks text.length text
  | .closeDelimited => some text

/-! ## Messages -/

def decodeStatusLine (line : Bytes) : Option Nat :=
  if line.take 9 = bytes "HTTP/1.1 " then
    match line.drop 9 with
    | a :: b :: c :: 32 :: _ =>
      if isDigitByte a && isDigitByte b && isDigitByte c then some (decimalValue [a, b, c]) else none
    | _ => none
  else none

/-- Responses with such a code may have a body. -/
def PermitsBody (status : Nat) : Prop := 200 ≤ status ∧ status ≠ 204 ∧ status ≠ 304

instance (status : Nat) : Decidable (PermitsBody status) :=
  inferInstanceAs (Decidable (200 ≤ status ∧ status ≠ 204 ∧ status ≠ 304))

structure Response where
  status : Nat
  fields : List (Bytes × Bytes)
  framing : Framing
  body : Bytes
  deriving DecidableEq

/-- The response announces that the connection is going to be closed. -/
def Response.closes (response : Response) : Bool := listsToken "connection" "close" response.fields

/-- A response with nothing before or behind it. -/
def decodeResponse (text : Bytes) : Option Response :=
  match breakOn [13, 10, 13, 10] text with
  | none => none
  | some (head, rest) =>
    match splitOn [13, 10] head with
    | [] => none
    | start :: lines => do
      let status ← decodeStatusLine start
      let fields ← lines.mapM decodeField
      let framing ← if PermitsBody status then decodeFraming fields else some (.contentLength 0)
      let body ← decodeBody framing rest
      some ⟨status, fields, framing, body⟩

/-! ## Lemmas -/

theorem plain_of_isTokenByte : ∀ b, isTokenByte b = true → isSpace b = false ∧ b ≠ 58 := by
  decide +kernel

/-- Without vertical tabs, form feeds and line ends both white spaces agree. -/
theorem trimOws_eq {text : Bytes} (h : ∀ b ∈ text, b ≠ 10 ∧ b ≠ 11 ∧ b ≠ 12 ∧ b ≠ 13) :
    trimOws text = trimAsciiWhitespace text := by
  have hsame : ∀ b ∈ text, isOws b = isSpace b := by
    have hall : ∀ b : UInt8, b ≠ 10 ∧ b ≠ 11 ∧ b ≠ 12 ∧ b ≠ 13 → isOws b = isSpace b := by decide +kernel
    exact fun b hb => hall b (h b hb)
  exact trim_congr hsame

theorem decodeField_line {name : Bytes} (hname : IsToken name) (text : Bytes) :
    decodeField (name ++ 58 :: text) = some (name, text) := by
  have hcolon : (58 : UInt8) ∉ name := fun hmem => (plain_of_isTokenByte 58 (hname.2 58 hmem)).2 rfl
  have hbreak : breakOn (bytes ":") (name ++ 58 :: text) = some (name, text) := breakOn_of_notMem hcolon text
  rw [decodeField, hbreak]
  exact if_pos hname

/-! ### Chunks -/

theorem decodeChunks_nil (fuel : Nat) : decodeChunks fuel [] = none := by
  cases fuel with
  | zero | succ => rfl

theorem notMem_hexadecimal (n : Nat) : (13 : UInt8) ∉ hexadecimal n := by
  intro hmem
  exact absurd (hexDigitValue_isSome_of_mem hmem) (by decide)

theorem breakOn_size (n : Nat) (rest : Bytes) :
    breakOn [13, 10] (hexadecimal n ++ (13 :: 10 :: rest)) = some (hexadecimal n, rest) :=
  breakOn_of_notMem (notMem_hexadecimal n) rest

theorem decodeChunks_append {payload : Bytes} (hne : payload ≠ []) (fuel : Nat) (rest : Bytes) :
    decodeChunks (fuel + 1) (hexadecimal payload.length ++ (13 :: 10 :: (payload ++ 13 :: 10 :: rest))) =
      (decodeChunks fuel rest).map fun body => payload ++ body := by
  obtain ⟨size, hsize⟩ := Nat.exists_eq_add_one_of_ne_zero (mt length_eq_zero_iff.mp hne)
  have hdrop : (payload ++ 13 :: 10 :: rest).drop (size + 1) = 13 :: 10 :: rest := by
    rw [← hsize, drop_left]
  have htake : (payload ++ 13 :: 10 :: rest).take (size + 1) = payload := by
    rw [← hsize, take_left]
  have hrest : (payload ++ 13 :: 10 :: rest).drop (size + 1 + 2) = rest := by
    rw [← drop_drop, hdrop]
    rfl
  have hlength : size + 1 ≤ (payload ++ 13 :: 10 :: rest).length := by
    rw [length_append]
    omega
  rw [decodeChunks, breakOn_size]
  dsimp only
  rw [hexValue_hexadecimal]
  dsimp only
  rw [hsize, if_neg (Nat.succ_ne_zero size), if_pos ⟨hlength, by rw [hdrop]; rfl⟩, hrest, htake]

theorem decodeChunks_final (fuel : Nat) : decodeChunks (fuel + 1) (bytes "0\r\n\r\n") = some [] := rfl

/-- A part of a chunk is no body. -/
theorem decodeChunks_of_begins {payload part : Bytes} (hne : payload ≠ [])
    (hbegins : part <+: hexadecimal payload.length ++ (13 :: 10 :: (payload ++ [13, 10]))) (fuel : Nat) :
    decodeChunks fuel part = none := by
  obtain ⟨more, hmore⟩ := hbegins
  cases fuel with
  | zero => rfl
  | succ fuel =>
    cases hbreak : breakOn [13, 10] part with
    | none => rw [decodeChunks, hbreak]
    | some split =>
      obtain ⟨sizeText, rest⟩ := split
      have hlonger := breakOn_append hbreak more
      rw [hmore, breakOn_size] at hlonger
      obtain ⟨rfl, hrest⟩ := Prod.mk.inj (Option.some.inj hlonger)
      obtain ⟨size, hsize⟩ := Nat.exists_eq_add_one_of_ne_zero (mt length_eq_zero_iff.mp hne)
      rw [decodeChunks, hbreak]
      dsimp only
      rw [hexValue_hexadecimal]
      dsimp only
      rw [hsize, if_neg (Nat.succ_ne_zero size)]
      split_ifs with hcomplete
      · -- the chunk is all there, so nothing comes behind it
        have htwo : 2 ≤ (rest.drop (size + 1)).length := by
          have hlength := congrArg List.length hcomplete.2
          rw [length_take] at hlength
          simp only [length_cons, length_nil] at hlength
          omega
        have hend : rest.drop (size + 1 + 2) = [] := by
          rw [drop_eq_nil_iff]
          have hlength := congrArg List.length hrest
          simp only [length_append, length_cons, length_nil] at hlength
          omega
        rw [hend, decodeChunks_nil]
        rfl
      · rfl

end A2A.Server.Transport.Http11
