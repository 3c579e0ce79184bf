import PeerChat.GoStringsProofs
import PeerChat.JsonEncodeProofs

/-! # `net/url` — the query of an address

    The query stands between the first `?` and the fragment.  Its settings are
    separated by `&`, and each is a key and a value with `=` between; whatever
    does not unescape is skipped.

    Nothing is escaped that need not be: a value of unreserved characters that is
    written into an address as it is, is read out of it as it was
    (`get_appended`). -/

namespace GoUrl

open GoStrings JsonEncode

/-- The value of a hexadecimal digit. -/
def hexValue (c : Char) : Option Nat :=
  if '0' ≤ c ∧ c ≤ '9' then some (c.toNat - 0x30)
  else if 'a' ≤ c ∧ c ≤ 'f' then some (c.toNat - 0x61 + 10)
  else if 'A' ≤ c ∧ c ≤ 'F' then some (c.toNat - 0x41 + 10)
  else none

/-- `QueryUnescape`, to bytes; `none` is an error. -/
def queryUnescape : List Char → Option (List UInt8)
  | [] => some []
  | '%' :: h :: l :: cs =>
      match hexValue h, hexValue l with
      | some a, some b => (queryUnescape cs).map (UInt8.ofNat (a * 16 + b) :: ·)
      | _, _ => none
  | c :: cs =>
      if c = '%' then none
      else (queryUnescape cs).map ((if c = '+' then [0x20] else utf8 c) ++ ·)

/-- A setting of the query; one without `=` has the empty value. -/
def setting (piece : List Char) : Option (List UInt8 × List UInt8) :=
  if ';' ∈ piece then none
  else if piece = [] then none
  else
    let (key, value) := (cut '=' piece).getD (piece, [])
    match queryUnescape key, queryUnescape value with
    | some k, some v => some (k, v)
    | _, _ => none

/-- `ParseQuery`, without the errors it skips. -/
def parseQuery (query : List Char) : List (List UInt8 × List UInt8) :=
  (query.splitOn '&').filterMap setting

/-- `Values.Get`: the first value, or nothing. -/
def get (query : List Char) (key : List UInt8) : List UInt8 :=
  (((parseQuery query).find? fun e => e.1 = key).map Prod.snd).getD []

/-- The `RawQuery` of an address. -/
def rawQuery (url : String) : List Char :=
  let beforeFragment := ((cut '#' url.toList).map Prod.fst).getD url.toList
  ((cut '?' beforeFragment).map Prod.snd).getD []

/-- The characters nothing ever escapes. -/
def isUnreserved (c : Char) : Bool :=
  ('a' ≤ c && c ≤ 'z') || ('A' ≤ c && c ≤ 'Z') || ('0' ≤ c && c ≤ '9') ||
    c = '-' || c = '_' || c = '.' || c = '~'

-- ── What is written as it is ──────────────────────────────────────────────────

/-- An unreserved character is none of the others. -/
theorem isUnreserved_ne {c d : Char} (hc : isUnreserved c = true) (hd : isUnreserved d = false) :
    c ≠ d := by
  rintro rfl
  rw [hc] at hd
  cases hd

/-- A text of unreserved characters holds none of the others. -/
theorem notMem_of_unreserved {cs : List Char} (h : ∀ c ∈ cs, isUnreserved c = true) {d : Char}
    (hd : isUnreserved d = false) : d ∉ cs := fun hin => isUnreserved_ne (h d hin) hd rfl

/-- Unreserved characters are read as they stand. -/
theorem queryUnescape_unreserved {cs : List Char} (h : ∀ c ∈ cs, isUnreserved c = true) :
    queryUnescape cs = some (cs.flatMap utf8) := by
  induction cs with
  | nil => rfl
  | cons c cs ih =>
      have hc := h c List.mem_cons_self
      have hpercent : c ≠ '%' := isUnreserved_ne hc (by decide)
      have hplus : c ≠ '+' := isUnreserved_ne hc (by decide)
      have hrest := ih fun d hd => h d (List.mem_cons_of_mem c hd)
      have hstep : queryUnescape (c :: cs)
          = (queryUnescape cs).map ((if c = '+' then [0x20] else utf8 c) ++ ·) := by
        rw [queryUnescape.eq_def]
        split
        · rename_i heq
          cases heq
        · rename_i heq
          cases heq
          exact absurd rfl hpercent
        · rename_i heq
          cases heq
          exact if_neg hpercent
      rw [hstep, if_neg hplus, hrest, List.flatMap_cons]
      rfl

/-- One setting is a query. -/
theorem get_single {key value : List Char} (hkey : ∀ c ∈ key, isUnreserved c = true)
    (hvalue : ∀ c ∈ value, isUnreserved c = true) :
    get (key ++ '=' :: value) (key.flatMap utf8) = value.flatMap utf8 := by
  have hnot : ∀ d, d ≠ '=' → isUnreserved d = false → d ∉ key ++ '=' :: value := by
    intro d hd hreserved hin
    rcases List.mem_append.mp hin with hin | hin
    · exact notMem_of_unreserved hkey hreserved hin
    · exact notMem_of_unreserved hvalue hreserved ((List.mem_cons.mp hin).resolve_left hd)
  have hsetting : setting (key ++ '=' :: value)
      = some (key.flatMap utf8, value.flatMap utf8) := by
    rw [setting, if_neg (hnot ';' (by decide) (by decide)),
      if_neg (List.append_ne_nil_of_right_ne_nil _ (List.cons_ne_nil _ _)),
      cut_append (notMem_of_unreserved hkey (by decide))]
    simp only [Option.getD_some, queryUnescape_unreserved hkey, queryUnescape_unreserved hvalue]
  rw [get, parseQuery, List.splitOn_eq_singleton (hnot '&' (by decide) (by decide)),
    List.filterMap_cons_some hsetting, List.find?_cons_of_pos (by simp)]
  rfl

/-- What stands behind the `?` of a URL is its query. -/
theorem rawQuery_appended {base : String} {query : List Char} (hquestion : '?' ∉ base.toList)
    (hhash : '#' ∉ base.toList) (hquery : '#' ∉ query) :
    rawQuery (base ++ String.ofList ('?' :: query)) = query := by
  have hchars : (base ++ String.ofList ('?' :: query)).toList = base.toList ++ '?' :: query := by
    rw [String.toList_append, String.toList_ofList]
  have hnone : '#' ∉ base.toList ++ '?' :: query := by
    intro hin
    rcases List.mem_append.mp hin with hin | hin
    · exact hhash hin
    · exact hquery ((List.mem_cons.mp hin).resolve_left (by decide))
  rw [rawQuery, hchars]
  simp only [cut_eq_none.mpr hnone, Option.map_none, Option.getD_none, cut_append hquestion,
    Option.map_some, Option.getD_some]

/-- **WRITTEN INTO AN ADDRESS, A VALUE IS READ OUT OF IT.** -/
theorem get_appended {base : String} {key value : List Char} (hquestion : '?' ∉ base.toList)
    (hhash : '#' ∉ base.toList) (hkey : ∀ c ∈ key, isUnreserved c = true)
    (hvalue : ∀ c ∈ value, isUnreserved c = true) :
    get (rawQuery (base ++ String.ofList ('?' :: (key ++ '=' :: value)))) (key.flatMap utf8)
      = value.flatMap utf8 := by
  have hquery : '#' ∉ key ++ '=' :: value := by
    intro hin
    rcases List.mem_append.mp hin with hin | hin
    · exact notMem_of_unreserved hkey (by decide) hin
    · exact notMem_of_unreserved hvalue (by decide)
        ((List.mem_cons.mp hin).resolve_left (by decide))
  rw [rawQuery_appended hquestion hhash hquery, get_single hkey hvalue]

end GoUrl
