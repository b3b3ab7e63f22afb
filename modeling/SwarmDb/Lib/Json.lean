import SwarmDb.Lib.Format

/-!
# JSON values

Values as a JSON library holds them, with the operations of `Json::Value` that look at or change one value, and throw on
a value of the wrong kind. Integers of either sign are one kind. Parsing and printing are parameters (`JsonText`);
`JsonText.plain` is a pair of them in which parsing undoes printing (`parse_plain`), to evaluate runs with.
-/

namespace SwarmDb.Lib

/-- A JSON value. -/
inductive Json where
  | null
  | bool (b : Bool)
  | int (n : Int)
  /-- A number with a fraction or an exponent: the text it is printed as, and
  its whole part where that is an unsigned integer of 64 bits. -/
  | real (text : Bytes) (whole : Option UInt64)
  | string (s : Bytes)
  | array (elements : List Json)
  /-- The members in the order of their names. -/
  | object (members : List (Bytes × Json))

/-- A parser, which may fail with a text, and a printer. -/
structure JsonText where
  parse : Bytes → Except String Json
  toStyledString : Json → Bytes

/-- A value that is printed is read as another, or as it was. -/
def JsonText.ReadsAs (json : JsonText) (value value' : Json) : Prop :=
  json.parse (json.toStyledString value) = .ok value'

namespace Json

/-- The decimal text of an integer. -/
def intText : Int → Bytes
  | .ofNat n => decimal n
  | .negSucc n => 45 :: decimal (n + 1)

/-- `value == s` -/
def isString (s : Bytes) : Json → Bool
  | string t => t = s
  | _ => false

/-- `value == n` -/
def isInt (n : Int) : Json → Bool
  | int m => m = n
  | _ => false

/-- `value[name]`: null where there is no such member. -/
def member (name : Bytes) : Json → Except String Json
  | null => .ok null
  | object members => .ok ((members.find? fun m => m.1 = name).elim null Prod.snd)
  | _ => .error "in Json::Value::find(key, end, found): requires objectValue or nullValue"

/-- The members with one of them set. -/
def insertMember (name : Bytes) (v : Json) : List (Bytes × Json) → List (Bytes × Json)
  | [] => [(name, v)]
  | m :: members =>
    if m.1 = name then (name, v) :: members
    else if m.1 < name then m :: insertMember name v members
    else (name, v) :: m :: members

/-- `value[name] = v` -/
def setMember (value : Json) (name : Bytes) (v : Json) : Except String Json :=
  match value with
  | null => .ok (object [(name, v)])
  | object members => .ok (object (insertMember name v members))
  | _ => .error "in Json::Value::resolveReference(key, end): requires objectValue"

/-- The values that an iteration goes through. -/
def elements : Json → List Json
  | array l => l
  | object members => members.map Prod.snd
  | _ => []

def asString : Json → Except String Bytes
  | null => .ok []
  | bool b => .ok (ascii (if b then "true" else "false"))
  | int n => .ok (intText n)
  | real text _ => .ok text
  | string s => .ok s
  | _ => .error "Type is not convertible to string"

def asUInt64 : Json → Except String UInt64
  | null => .ok 0
  | bool b => .ok (if b then 1 else 0)
  | int n => if 0 ≤ n then .ok (UInt64.ofNat n.toNat) else .error "LargestInt out of UInt64 range"
  | real _ whole => whole.elim (.error "double out of UInt64 range") .ok
  | _ => .error "Value is not convertible to UInt64."

def asUInt : Json → Except String UInt32
  | null => .ok 0
  | bool b => .ok (if b then 1 else 0)
  | int n => if 0 ≤ n ∧ n < 2 ^ 32 then .ok (UInt32.ofNat n.toNat) else .error "LargestInt out of UInt range"
  | real _ whole =>
    match whole with
    | some n => if n < 2 ^ 32 then .ok n.toUInt32 else .error "double out of UInt range"
    | none => .error "double out of UInt range"
  | _ => .error "Value is not convertible to UInt."

/-- `value.isMember(name)` -/
def isMember (name : Bytes) : Json → Except String Bool
  | null => .ok false
  | object members => .ok (members.any fun m => m.1 = name)
  | _ => .error "in Json::Value::find(key, end, found): requires objectValue or nullValue"

/-- What a number is printed as. Every other value is printed as a text that
is no number. -/
def numberText : Json → Option Bytes
  | int n => some (intText n)
  | real text _ => some text
  | _ => none

/-- `value.clear()`, and `append` for each of the values. -/
def refill (l : List Json) : Json → Except String Json
  | null => .ok (if l.isEmpty then null else array l)
  | array _ => .ok (array l)
  | object _ =>
    if l.isEmpty then .ok (object [])
    else .error "in Json::Value::operator[](ArrayIndex): requires arrayValue"
  | _ => .error "in Json::Value::clear(): requires complex value"

/-! ## A plain text -/

open Format

private def intFormat : Format Int :=
  (pair tag bytes).ofRetract (fun p => if p.1 = 0 then Int.ofNat (ofDecimal p.2) else Int.negSucc (ofDecimal p.2))
    (fun n => match n with
      | .ofNat m => (0, decimal m)
      | .negSucc m => (1, decimal m))
    fun n => by cases n <;> simp

mutual

private def put : Json → Bytes
  | null => [0]
  | bool b => [if b then 1 else 2]
  | int n => 3 :: intFormat.put n
  | real text whole => 4 :: (pair bytes (option word)).put (text, whole)
  | string s => 5 :: bytes.put s
  | array l => 6 :: putElements l
  | object members => 7 :: putMembers members

private def putElements : List Json → Bytes
  | [] => [0]
  | j :: l => 1 :: (put j ++ putElements l)

private def putMembers : List (Bytes × Json) → Bytes
  | [] => [0]
  | (name, j) :: members => 1 :: (bytes.put name ++ put j ++ putMembers members)

end

private def putMember (m : Bytes × Json) : Bytes := bytes.put m.1 ++ put m.2

private theorem putElements_eq (l : List Json) : putElements l = putList put l := by
  induction l with
  | nil => rfl
  | cons _ _ ih => rw [putElements, putList, ih]

private theorem putMembers_eq (members : List (Bytes × Json)) : putMembers members = putList putMember members := by
  induction members with
  | nil => rfl
  | cons _ _ ih => rw [putMembers, putList, ih, putMember]

private def getMember (get : Bytes → Option (Json × Bytes)) (b : Bytes) : Option ((Bytes × Json) × Bytes) :=
  (bytes.get b).bind fun p => (get p.2).map fun q => ((p.1, q.1), q.2)

private def get : Nat → Bytes → Option (Json × Bytes)
  | 0, _ => none
  | _ + 1, [] => none
  | depth + 1, c :: b =>
    match c with
    | 0 => some (null, b)
    | 1 => some (bool true, b)
    | 2 => some (bool false, b)
    | 3 => (intFormat.get b).map fun p => (int p.1, p.2)
    | 4 => ((pair bytes (option word)).get b).map fun p => (real p.1.1 p.1.2, p.2)
    | 5 => (bytes.get b).map fun p => (string p.1, p.2)
    | 6 => (getList (get depth) (b.length + 1) b).map fun p => (array p.1, p.2)
    | 7 => (getList (getMember (get depth)) (b.length + 1) b).map fun p => (object p.1, p.2)
    | _ => none

private theorem length_put_of_mem {α : Type} (put : α → Bytes) {a : α} {l : List α} (h : a ∈ l) :
    (put a).length < (putList put l).length := by
  induction l with
  | nil => cases h
  | cons _ _ ih =>
    simp only [putList, List.length_cons, List.length_append]
    rcases List.mem_cons.mp h with rfl | h
    · omega
    · have := ih h
      omega

/-- The text of a value bounds the depth of the values in it. -/
private theorem get_put (depth : Nat) (j : Json) (h : (put j).length ≤ depth) (rest : Bytes) :
    get depth (put j ++ rest) = some (j, rest) := by
  induction depth generalizing j rest with
  | zero => cases j <;> simp [put] at h
  | succ _ ih =>
    cases j with
    | null => rfl
    | bool b => cases b <;> rfl
    | int => simp only [put, List.cons_append, get, intFormat.get_put, Option.map_some]
    | real => simp only [put, List.cons_append, get, (pair bytes (option word)).get_put, Option.map_some]
    | string => simp only [put, List.cons_append, get, bytes.get_put, Option.map_some]
    | array l =>
      have hl := length_le_putList put l
      rw [put, putElements_eq, List.length_cons] at h
      simp only [put, putElements_eq, List.cons_append, get]
      rw [getList_putList l _ _ (by simp only [List.length_append]; omega), Option.map_some]
      intro j hj
      have := length_put_of_mem put hj
      exact ih j (by omega)
    | object members =>
      have hl := length_le_putList putMember members
      rw [put, putMembers_eq, List.length_cons] at h
      simp only [put, putMembers_eq, List.cons_append, get]
      rw [getList_putList members _ _ (by simp only [List.length_append]; omega), Option.map_some]
      intro m hm rest
      have := length_put_of_mem putMember hm
      simp only [putMember, List.length_append] at this
      rw [putMember, List.append_assoc, getMember, bytes.get_put, Option.bind_some, ih m.2 (by omega), Option.map_some]

end Json

namespace JsonText

/-- A text that the printer gives back. -/
def plain : JsonText where
  parse b :=
    match Json.get b.length b with
    | some (j, _) => .ok j
    | none => .error "Syntax error"
  toStyledString := Json.put

@[simp] theorem parse_plain (j : Json) : plain.parse (plain.toStyledString j) = .ok j := by
  have := Json.get_put (Json.put j).length j le_rfl []
  rw [List.append_nil] at this
  simp only [plain, this]

end JsonText

end SwarmDb.Lib
