import ClientRecords.Proofs.Query.Names
import ClientRecords.Proofs.Text.Tidy
import ClientRecords.Proofs.Token.Integer
import ClientRecords.Statement.Reader
/-!
Inserts, updates and removals written out: a table, the fields that are written with an item for
each, and conditions with the values of their parameters. Every part comes with its tokens, the
values of its placeholders and what it means.
-/

namespace ClientRecords

open Token

namespace Written

/-- What the word of a table is written as: itself, with a point and a star behind it, or between
quotes. -/
inductive IsWordText : List Char → String → Prop
  | plain {w : String} (h : (Token.word w).isPlain = true) : IsWordText w.toList w
  | starred {w : String} (h : (Token.word w).isPlain = true) :
    IsWordText (w.toList ++ ['.', '*']) (w ++ ".*")
  | quoted {w : String} {q : Char} (hq : q = '"' ∨ q = '\x60') (ho : q ∉ w.toList)
    (ht : Text.isTidy w.toList = true) : IsWordText (q :: (w.toList ++ [q])) w

/-- A table by any word. -/
structure TableWord where
  text : String
  name : String
  isText : IsWordText text.toList name

/-- What a field is given: a parameter with its value, a value that is spelled out, or the time of
the statement. -/
inductive Item where
  | param (value : Value)
  | integer (i : Int64)
  | null
  | bool (b : Bool)
  | now
  | string (s : String) (tidy : Text.isTidy s.toList = true)

/-- The fields that a statement writes, with their items. -/
structure Assignments where
  items : List (Name × Item)
  nonempty : items ≠ []
  distinct : (items.map fun e => e.1.text).Nodup

/-- A statement that writes. -/
inductive Change where
  | insert (orIgnore : Bool) (table : TableWord) (columns : Assignments)
  | update (table : TableWord) (assignments : Assignments)
    (free : ∀ e ∈ assignments.items, e.1.text ≠ "updated_at") (conditions : List Condition)
  | delete (table : TableWord) (conditions : List Condition)

/-! ### Tokens -/

def Item.token : Item → Token
  | .param _ => .placeholder
  | .integer i => ofInt64 i
  | .null => .word "NULL"
  | .bool b => .word (if b then "TRUE" else "FALSE")
  | .now => .word "CURRENT_TIMESTAMP"
  | .string s _ => .string s

namespace Assignments

/-- Tokens between commas. -/
def list (a : Assignments) (f : Name × Item → List Token) : List Token :=
  List.intercalate [.comma] (a.items.map f)

def columnTokens (a : Assignments) : List Token := a.list fun e => [e.1.token]

def itemTokens (a : Assignments) : List Token := a.list fun e => [e.2.token]

def setTokens (a : Assignments) : List Token :=
  a.list fun e => [e.1.token, .comparison .eq, e.2.token]

end Assignments

/-- The clause at the end of a statement; without conditions there is none. -/
def whereTokens (cs : List Condition) : List Token :=
  if cs.isEmpty then []
  else .word "WHERE" :: List.intercalate [.word "AND"] (cs.map Condition.tokens)

namespace Change

def table : Change → TableWord
  | .insert _ t _ | .update t _ _ _ | .delete t _ => t

/-- The words before the table. -/
def lead : Change → List Token
  | .insert orIgnore _ _ =>
    if orIgnore then [.word "INSERT", .word "OR", .word "IGNORE", .word "INTO"]
    else [.word "INSERT", .word "INTO"]
  | .update .. => [.word "UPDATE"]
  | .delete .. => [.word "DELETE", .word "FROM"]

/-- The tokens behind the table. -/
def rest : Change → List Token
  | .insert _ _ a => .openParen :: (a.columnTokens ++ .closeParen :: .word "VALUES" ::
    .openParen :: (a.itemTokens ++ [.closeParen]))
  | .update _ a _ cs => .word "SET" :: (a.setTokens ++ whereTokens cs)
  | .delete _ cs => whereTokens cs

def tokens (w : Change) : List Token := w.lead ++ .word w.table.name :: w.rest

/-- The text of the statement. -/
def text (w : Change) : String :=
  String.ofList (spell w.lead ++ ' ' :: (w.table.text.toList ++
    if w.rest.isEmpty then [] else ' ' :: spell w.rest))

end Change

/-! ### Values of placeholders -/

def Item.values : Item → List Value
  | .param v => [v]
  | _ => []

def Assignments.values (a : Assignments) : List Value := a.items.flatMap fun e => e.2.values

/-- The values of the placeholders in the order of the text. -/
def Change.values : Change → List Value
  | .insert _ _ a => a.values
  | .update _ a _ cs => a.values ++ cs.flatMap (·.test.values)
  | .delete _ cs => cs.flatMap (·.test.values)

/-! ### What is meant -/

def Item.value (stamp : String) : Item → Value
  | .param v => v
  | .integer i => .int i
  | .null => .null
  | .bool b => .bool b
  | .now => .string stamp
  | .string s _ => .string s

/-- The value of a field of a new row: a time stamp that is given nothing truthy is set. -/
def Item.newValue (stamp name : String) (i : Item) : Value :=
  if name ∈ Statement.stampFields ∧ (i.value stamp).isTruthy = false then .string stamp
  else i.value stamp

def Item.isNow : Item → Bool
  | .now => true
  | _ => false

namespace Assignments

variable (a : Assignments) (stamp : String)

def names : List String := a.items.map fun e => e.1.text

/-- The time stamps that are not named. -/
def missing : List String := Statement.stampFields.filter fun name => name ∉ a.names

/-- The fields of a new row: the columns in their order, and then the time stamps not named. -/
def newFields : Entries Value :=
  a.items.map (fun e => (e.1.text, e.2.newValue stamp e.1.text))
    ++ a.missing.map fun name => (name, .string stamp)

/-- The fields of an update in their order, the time stamp last. -/
def updateFields : Entries Value :=
  (a.items.filter fun e => !e.2.isNow).map (fun e => (e.1.text, e.2.value stamp))
    ++ [("updated_at", .string stamp)]

theorem nodup_names_newFields : (a.newFields stamp).names.Nodup := by
  have hnamed : (a.newFields stamp).names = a.names ++ a.missing := by
    simp [newFields, Entries.names, names, Function.comp_def]
  rw [hnamed, List.nodup_append]
  refine ⟨a.distinct, (by decide : Statement.stampFields.Nodup).filter _, ?_⟩
  rintro x hx _ hy rfl
  exact (of_decide_eq_true (List.mem_filter.mp hy).2) hx

theorem nodup_names_updateFields (h : ∀ e ∈ a.items, e.1.text ≠ "updated_at") :
    (a.updateFields stamp).names.Nodup := by
  have hnamed : (a.updateFields stamp).names
      = (a.items.filter fun e => !e.2.isNow).map (fun e => e.1.text) ++ ["updated_at"] := by
    simp [updateFields, Entries.names, Function.comp_def]
  have hsub : ((a.items.filter fun e => !e.2.isNow).map fun e => e.1.text).Sublist a.names :=
    List.filter_sublist.map _
  rw [hnamed, List.nodup_append]
  refine ⟨hsub.nodup a.distinct, by decide, ?_⟩
  rintro x hx y hy rfl
  obtain ⟨e, he, rfl⟩ := List.mem_map.mp (hsub.subset hx)
  exact h e he (List.mem_singleton.mp hy)

end Assignments

/-- The statement that is written, at the time of a stamp. -/
def Change.statement (stamp : String) : Change → Statement
  | .insert orIgnore t a =>
    .insert (Text.lowercase t.name) orIgnore ⟨a.newFields stamp, a.nodup_names_newFields stamp⟩
  | .update t a free cs =>
    .update (Text.lowercase t.name)
      ⟨a.updateFields stamp, a.nodup_names_updateFields stamp free⟩ (cs.map Condition.condition)
  | .delete t cs => .delete (Text.lowercase t.name) (cs.map Condition.condition)

end Written
end ClientRecords
