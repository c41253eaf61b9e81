import HttpService.Text.Cut
import HttpService.Text.Percent

/-!
# Domain names

A URL writes the name of its host in ASCII.  An international name is mapped to such a one by
tables that are no part of this library, and so is a name with a label that says of itself that it
was mapped.  The mapping is a parameter, `DomainNames`, with what the URL standard says of it: what
it gives may stand in a URL, it leaves that as it is when it is asked again, and a name that needs
no tables is only put into small letters.
-/

namespace HttpService

namespace Host

/-- The characters that no domain name holds. -/
def isForbidden (c : Char) : Bool :=
  Percent.isControl c || c == ' ' || "%#/:<>?@[\\]^|".toList.contains c

/-- A character that a reader keeps in a domain name. -/
def isNameChar (c : Char) : Bool :=
  c.toNat < 0x80 && !isForbidden c && c.toLower == c

/-- A name that needs no tables: it is ASCII, and no label says that it was mapped. -/
def isPlainName (cs : List Char) : Bool :=
  (cs.all fun c => c.toNat < 0x80) &&
    (Text.splitAll (· == '.') (cs.map Char.toLower)).all fun label =>
      !(['x', 'n', '-', '-'].isPrefixOf label)

/-- A name in small letters, unless it holds something that none does. -/
def lowerName? (cs : List Char) : Option (List Char) :=
  if cs.any isForbidden then none else some (cs.map Char.toLower)

/-- What a domain name holds is in small letters. -/
theorem map_toLower_eq_self {name : List Char} (h : ∀ c ∈ name, isNameChar c = true) :
    name.map Char.toLower = name := by
  refine (List.map_congr_left fun c hc => ?_).trans (List.map_id name)
  have hname := h c hc
  simp only [isNameChar, Bool.and_eq_true, beq_iff_eq] at hname
  exact hname.2

theorem lowerName?_eq_self {name : List Char} (h : ∀ c ∈ name, isNameChar c = true) :
    lowerName? name = some name := by
  have hany : name.any isForbidden = false := by
    refine List.any_eq_false.mpr fun c hc => ?_
    have hname := h c hc
    simp only [isNameChar, Bool.and_eq_true, Bool.not_eq_true'] at hname
    rw [hname.1.2]
    exact Bool.false_ne_true
  rw [lowerName?, hany, map_toLower_eq_self h]
  rfl

end Host

/-- The mapping of domain names to ASCII. -/
class DomainNames where
  toAscii? : List Char → Option (List Char)
  isNameChar_of_toAscii? {cs name : List Char} :
    toAscii? cs = some name → ∀ c ∈ name, Host.isNameChar c = true
  toAscii?_again {cs name : List Char} : toAscii? cs = some name → toAscii? name = some name
  toAscii?_plain {cs : List Char} : Host.isPlainName cs = true → toAscii? cs = Host.lowerName? cs

end HttpService
