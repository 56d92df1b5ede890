import ClosedSql.Statement.Parser

/-!
# The grammar of statements

The closed set of statements as a grammar over tokens. A derivation relates a run of tokens to
what it means, and every rule names the tokens it is made of. Nothing here looks ahead, tries an
alternative or counts what has been read: that is left to the reader of statements, which is
measured against this grammar.

Keywords are matched in any case. A name is a word that is not reserved, or an identifier in
double quotes.
-/

namespace ClosedSql.Grammar

def Keyword (text : String) (token : Token) : Prop :=
  token.isKeyword text = true

/-! ## Names and terms -/

inductive Name : Token → String → Prop
  | word {text : String} (free : Statement.isReserved text = false) : Name (.word text) text
  | quoted {text : String} (identifier : Text.isIdentifier text.toList = true) :
      Name (.quotedName text) text

/-- A natural number in decimal digits, perhaps after a plus sign. -/
inductive Natural : List Char → Nat → Prop
  | digits {digits : List Char} (all : Number.isDigits digits = true) :
      Natural digits (Number.digitsValue digits)
  | plus {digits : List Char} (all : Number.isDigits digits = true) :
      Natural ('+' :: digits) (Number.digitsValue digits)

/-- An integer in decimal digits, perhaps after a sign. -/
inductive Integral : List Char → Int → Prop
  | natural {written : List Char} {n : Nat} (natural : Natural written n) : Integral written n
  | minus {digits : List Char} (all : Number.isDigits digits = true) :
      Integral ('-' :: digits) (-(Number.digitsValue digits : Int))

/-- What may stand for a value. A number without a point must fit in 64 bits. -/
inductive Term : List Token → Slot → Prop
  | placeholder : Term [.placeholder] .placeholder
  | text (content : String) : Term [.quotedText content] (.literal (.text content))
  | integer {written : String} {n : Int64} (integral : Integral written.toList n.toInt) :
      Term [.number written] (.literal (.int n))
  | float {written : String} {x : Number.Binary64} (point : '.' ∈ written.toList)
      (reads : Number.readFloat? written.toList = some x) :
      Term [.number written] (.literal (.float x))
  | true {word : Token} (keyword : Keyword "true" word) : Term [word] (.literal (.bool true))
  | false {word : Token} (keyword : Keyword "false" word) : Term [word] (.literal (.bool false))
  | null {word : Token} (keyword : Keyword "null" word) : Term [word] (.literal .null)
  | now {word : Token} (keyword : Keyword "now" word) :
      Term [word, .leftParen, .rightParen] (.literal (.text "now()"))

/-! ## Columns, assignments and conditions -/

inductive Column : List Token → String → Prop
  | name {token : Token} {column : String} (name : Name token column) : Column [token] column

inductive Assignment : List Token → String × Slot → Prop
  | set {token : Token} {column : String} {value : List Token} {slot : Slot}
      (name : Name token column) (operand : Term value slot) :
      Assignment (token :: .operator .equals :: value) (column, slot)

inductive Predicate : List Token → Condition Slot → Prop
  | compare {token : Token} {column : String} {symbol : OpSymbol} {value : List Token}
      {slot : Slot} (name : Name token column) (operand : Term value slot) :
      Predicate (token :: .operator symbol :: value) ⟨column, symbol.op, slot⟩

section Lists

variable {α : Type}

/-- Any number of further items, each after a comma. -/
inductive Further (item : List Token → α → Prop) : List Token → List α → Prop
  | nil : Further item [] []
  | cons {tokens rest : List Token} {value : α} {values : List α} (head : item tokens value)
      (tail : Further item rest values) :
      Further item (.comma :: (tokens ++ rest)) (value :: values)

/-- One or more items with commas between them. -/
inductive Several (item : List Token → α → Prop) : List Token → List α → Prop
  | intro {tokens rest : List Token} {value : α} {values : List α} (head : item tokens value)
      (tail : Further item rest values) : Several item (tokens ++ rest) (value :: values)

end Lists

/-! ## Clauses -/

inductive WhereClause : List Token → Option (Condition Slot) → Prop
  | absent : WhereClause [] none
  | present {word : Token} {tokens : List Token} {condition : Condition Slot}
      (keyword : Keyword "where" word) (predicate : Predicate tokens condition) :
      WhereClause (word :: tokens) (some condition)

inductive Direction : List Token → Bool → Prop
  | unsaid : Direction [] true
  | ascending {word : Token} (keyword : Keyword "asc" word) : Direction [word] true
  | descending {word : Token} (keyword : Keyword "desc" word) : Direction [word] false

inductive OrderClause : List Token → Option OrderBy → Prop
  | absent : OrderClause [] none
  | present {order by_ token : Token} {column : String} {tokens : List Token} {ascending : Bool}
      (orderWord : Keyword "order" order) (byWord : Keyword "by" by_) (name : Name token column)
      (direction : Direction tokens ascending) :
      OrderClause (order :: by_ :: token :: tokens) (some ⟨column, ascending⟩)

/-- A limit is a natural number of 64 bits. -/
inductive LimitClause : List Token → Option UInt64 → Prop
  | absent : LimitClause [] none
  | present {word : Token} {written : String} {limit : UInt64} (keyword : Keyword "limit" word)
      (natural : Natural written.toList limit.toNat) :
      LimitClause [word, .number written] (some limit)

inductive Label : List Token → Option String → Prop
  | absent : Label [] none
  | bare {token : Token} {label : String} (name : Name token label) : Label [token] (some label)
  | named {word token : Token} {label : String} (keyword : Keyword "as" word)
      (name : Name token label) : Label [word, token] (some label)

/-! ## The condition of a count -/

/-- Tokens that can only mean a condition, though not a single comparison. -/
structure Beyond (tokens : List Token) : Prop where
  nonempty : tokens ≠ []
  no_semicolon : Token.semicolon ∉ tokens
  no_unknown : ∀ c : Char, Token.unknown c ∉ tokens
  no_blocker : ∀ token ∈ tokens, ∀ word ∈ Statement.blockingWords, ¬Keyword word token
  not_single : ∀ condition : Condition Slot, ¬Predicate tokens condition

/-- Tokens among which `and` or `or` occurs. -/
def Combined (tokens : List Token) : Prop :=
  ∃ token ∈ tokens, Keyword "and" token ∨ Keyword "or" token

/-- What follows `where` in a count: one comparison, or else any condition, which is kept with the
reason why it cannot be applied. -/
inductive CountCondition : List Token → CountFilter → Prop
  | single {tokens : List Token} {condition : Condition Slot}
      (predicate : Predicate tokens condition) : CountCondition tokens (.single condition)
  | combined {tokens : List Token} (beyond : Beyond tokens) (combined : Combined tokens) :
      CountCondition tokens (.beyond .ambiguous (tokens.count .placeholder))
  | other {tokens : List Token} (beyond : Beyond tokens) (plain : ¬Combined tokens) :
      CountCondition tokens (.beyond .notRecognized (tokens.count .placeholder))

inductive CountClause : List Token → CountFilter → Prop
  | absent : CountClause [] .none
  | present {word : Token} {tokens : List Token} {filter : CountFilter}
      (keyword : Keyword "where" word) (condition : CountCondition tokens filter) :
      CountClause (word :: tokens) filter

/-! ## Statements -/

/-- A statement without the semicolon at its end. -/
inductive Form : List Token → Statement → Prop
  | insert {insert into name values : Token} {table : String}
      {columnTokens valueTokens : List Token} {columns : List String} {slots : List Slot}
      (insertWord : Keyword "insert" insert) (intoWord : Keyword "into" into)
      (tableName : Name name table)
      (columnList : Several Column columnTokens columns) (distinct : columns.Nodup)
      (valuesWord : Keyword "values" values) (valueList : Several Term valueTokens slots) :
      Form (insert :: into :: name :: .leftParen :: (columnTokens ++ .rightParen :: values ::
        .leftParen :: (valueTokens ++ [.rightParen]))) (.insert table columns slots)
  | update {update name set where_ : Token} {table : String} {setTokens found : List Token}
      {assignments : List (String × Slot)} {condition : Condition Slot}
      (updateWord : Keyword "update" update) (tableName : Name name table)
      (setWord : Keyword "set" set) (setList : Several Assignment setTokens assignments)
      (distinct : (assignments.map Prod.fst).Nodup) (whereWord : Keyword "where" where_)
      (predicate : Predicate found condition) :
      Form (update :: name :: set :: (setTokens ++ where_ :: found))
        (.update table assignments condition)
  | delete {delete from_ name where_ : Token} {table : String} {found : List Token}
      {condition : Condition Slot} (deleteWord : Keyword "delete" delete)
      (fromWord : Keyword "from" from_) (tableName : Name name table)
      (whereWord : Keyword "where" where_) (predicate : Predicate found condition) :
      Form (delete :: from_ :: name :: where_ :: found) (.delete table condition)
  | select {select from_ name : Token} {table : String} {found orderTokens limitTokens : List Token}
      {condition : Option (Condition Slot)} {order : Option OrderBy} {limit : Option UInt64}
      (selectWord : Keyword "select" select) (fromWord : Keyword "from" from_)
      (tableName : Name name table) (whereClause : WhereClause found condition)
      (orderClause : OrderClause orderTokens order) (limitClause : LimitClause limitTokens limit) :
      Form (select :: .star :: from_ :: name :: (found ++ (orderTokens ++ limitTokens)))
        (.select table condition order limit)
  | count {select count from_ name : Token} {table : String} {labelTokens found : List Token}
      {label : Option String} {filter : CountFilter} (selectWord : Keyword "select" select)
      (countWord : Keyword "count" count) (labelled : Label labelTokens label)
      (fromWord : Keyword "from" from_) (tableName : Name name table)
      (countClause : CountClause found filter) :
      Form (select :: count :: .leftParen :: .star :: .rightParen ::
        (labelTokens ++ from_ :: name :: found)) (.count table label filter)

/-- A statement, which may end in one semicolon. -/
inductive Sentence : List Token → Statement → Prop
  | bare {tokens : List Token} {statement : Statement} (form : Form tokens statement) :
      Sentence tokens statement
  | closed {tokens : List Token} {statement : Statement} (form : Form tokens statement) :
      Sentence (tokens ++ [.semicolon]) statement

end ClosedSql.Grammar
