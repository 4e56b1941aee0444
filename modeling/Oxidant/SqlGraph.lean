import Mathlib.Data.List.Basic

/-! Reading a pipeline's SQL: the string literals of a statement. A cursor is represented by the
text from its position on. -/
namespace Oxidant.SqlGraph
open List

def isAsciiWhitespace (c : Char) : Bool := c == ' ' || c == '\t' || c == '\n' || c == '\x0c' || c == '\r'

def skipWs (text : List Char) : List Char := text.dropWhile isAsciiWhitespace

/-- The loop of `parse_string_literal`: the literal read so far, and the text still ahead. -/
def literalFrom (quote : Char) (out : List Char) : List Char → Except String (List Char × List Char)
  | [] => .error "unterminated string literal"
  | [ch] => if ch = quote then .ok (out,[]) else .error "unterminated string literal"
  | ch :: next :: rest =>
    if ch = quote then .ok (out,next :: rest)
    else if ch = '\'' ∧ quote = '\'' ∧ next = '\'' then literalFrom quote (out ++ ['\'']) rest
    else literalFrom quote (out ++ [ch]) (next :: rest)

def parseStringLiteral (text : List Char) : Except String (List Char × List Char) :=
  match skipWs text with
  | [] => .error "expected string literal"
  | quote :: rest =>
    if quote ≠ '\'' ∧ quote ≠ '"' then .error "expected string literal" else literalFrom quote [] rest

inductive Quote | single | double

def Quote.char : Quote → Char
  | .single => '\''
  | .double => '"'

def doubled (quote : Char) (content : List Char) : List Char :=
  content.flatMap fun ch => if ch = quote then [ch,ch] else [ch]

def quoted (quote : Quote) (content : List Char) : List Char :=
  quote.char :: doubled quote.char content ++ [quote.char]

lemma doubled_plain (plain : quote ∉ content) : doubled quote content = content := by
  induction content with
  | nil => rfl
  | cons ch content ih =>
    obtain ⟨other,plain⟩ := not_or.mp (mt mem_cons.mpr plain)
    rw [doubled,flatMap_cons,if_neg (Ne.symm other),← doubled,ih plain,singleton_append]

lemma literalFrom_plain {after} (out : List Char) (plain : quote ∉ content) :
    literalFrom quote out (content ++ quote :: after) = .ok (out ++ content,after) := by
  induction content generalizing out with
  | nil => cases after <;> simp [literalFrom]
  | cons ch content ih =>
    obtain ⟨other,plain⟩ := not_or.mp (mt mem_cons.mpr plain)
    obtain ⟨next,rest,ahead⟩ := exists_cons_of_ne_nil (append_ne_nil_of_right_ne_nil content (cons_ne_nil quote after))
    have step := ih (out ++ [ch]) plain
    rw [cons_append,ahead,literalFrom,if_neg (Ne.symm other),if_neg (by rintro ⟨rfl,rfl,_⟩; exact other rfl),← ahead,
      step]
    simp

lemma parseStringLiteral_opened (quote : Quote) (text : List Char) :
    parseStringLiteral (quote.char :: text) = literalFrom quote.char [] text := by
  cases quote <;> rfl

/-- The test for the closing quote comes before the test for a doubled one. -/
theorem quoted_reads_back_iff (quote : Quote) (content after : List Char) :
    parseStringLiteral (quoted quote content ++ after) = .ok (content,after) ↔ quote.char ∉ content := by
  rw [quoted,cons_append,cons_append,parseStringLiteral_opened,append_assoc,singleton_append]
  constructor
  · intro back inside
    obtain ⟨start,rest,rfl,plain⟩ := eq_append_cons_of_mem inside
    rw [doubled,flatMap_append,← doubled,doubled_plain plain,flatMap_cons,if_pos rfl,append_assoc,append_assoc,
      cons_append,literalFrom_plain [] plain] at back
    simp at back
  · intro plain
    rw [doubled_plain plain,literalFrom_plain [] plain,nil_append]

theorem doubled_quote_ends_the_literal :
    parseStringLiteral (quoted .single "it's".toList ++ " x".toList) = .ok ("it".toList,"'s' x".toList) := by decide

end Oxidant.SqlGraph
