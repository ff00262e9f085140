import IrisMind.Lib.Text
import Mathlib.Data.List.Infix

/-! # The words and patterns an appraisal looks for

A keyword is searched for as it stands. A pattern of a context is a sequence of
characters, of choices of a character and of gaps, each of which takes any
characters of one line; a text has it when it matches somewhere in it. -/
namespace IrisMind.Limbic
open IrisMind.Lib

/-- A part of a pattern: a character, one of several, or `.*`. -/
inductive Piece where
  | char (c : Char)
  | oneOf (cs : List Char)
  | gap

abbrev Pattern := List Piece

namespace Pattern

/-- A gap that takes characters of one line, and what has to match behind it. -/
def matchesAfter (rest : List Char → Bool) : List Char → Bool
  | [] => rest []
  | c :: l => rest (c :: l) || (c != '\n' && matchesAfter rest l)

/-- The pattern matches at the start of a text. -/
def matchesAt : Pattern → List Char → Bool
  | [], _ => true
  | .char c :: rest, l =>
    match l with
    | [] => false
    | d :: l => d == c && matchesAt rest l
  | .oneOf cs :: rest, l =>
    match l with
    | [] => false
    | d :: l => cs.contains d && matchesAt rest l
  | .gap :: rest, l => matchesAfter (matchesAt rest) l

/-- `p.search(text)`, as the condition it is used as. -/
def search (p : Pattern) (text : String) : Bool := text.toList.tails.any (matchesAt p)

/-- `re.escape(keyword)`, compiled. -/
def literal (keyword : String) : Pattern := keyword.toList.map .char

end Pattern

def keywordMap : List (String × List String) :=
  [("joy", ["嬉しい", "楽しい", "幸せ", "うれしい", "たのしい", "わくわく", "良かった", "やった", "最高", "素晴らしい", "良い"]),
   ("sadness", ["悲しい", "残念", "寂しい", "つらい", "辛い", "落ち込む", "淋しい", "虚しい", "悔しい", "惜しい"]),
   ("anticipation", ["楽しみ", "期待", "待っている", "欲しい", "いつか", "これから", "将来", "未来", "予定", "計画"]),
   ("surprise", ["驚いた", "びっくり", "まさか", "信じられない", "すごい", "驚き", "意外", "想定外", "予期せぬ"]),
   ("anger", ["腹が立つ", "腹立つ", "怒り", "イライラ", "むかつく", "許せない", "ひどい", "最悪", "怒る", "怒らせる"]),
   ("fear", ["怖い", "恐い", "不安", "心配", "おびえる", "怯える", "危ない", "リスク", "恐怖"]),
   ("disgust", ["嫌い", "気持ち悪い", "不快", "うんざり", "嫌", "嫌悪", "吐き気"]),
   ("trust", ["信頼", "頼れる", "安心", "大丈夫", "信じる", "任せる", "頼もしい"])]

open Pattern (literal) in
def contextPatterns : List (String × List Pattern) :=
  [("self_disclosure", [literal "私" ++ [.oneOf "はが".toList] ++ [.gap] ++ literal "思う",
     literal "私の" ++ [.gap] ++ literal "経験", literal "実は" ++ [.gap], literal "正直" ++ [.gap],
     literal "隠し事" ++ [.gap]]),
   ("support_seeking", [literal "助けて", literal "相談" ++ [.gap],
     literal "困" ++ [.oneOf "っり".toList] ++ literal "た", literal "どうしよ", literal "アドバイス"]),
   ("positive_feedback", [literal "ありがとう", literal "助かった",
     literal "良い" ++ [.gap] ++ literal "感じ", literal "満足", literal "嬉しい"]),
   ("negative_feedback", [literal "悪い" ++ [.gap] ++ literal "感じ", literal "不満",
     literal "がっかり", literal "期待外れ", literal "ひどい"])]

end IrisMind.Limbic
