import MailClient.Foundation.Separators

/-!
# Lists in contacts

The values of nicknames and categories are lists of texts, those of names and
addresses are components that are lists themselves.  They are cut at separators
and then unescaped.
-/

namespace MailClient
namespace Vcard

open Foundation

/-- The values that have a type of their own. -/
inductive ValueType where
  | component
  | date
  | dateAndOrTime
  | time
  | timeZone
  | timestamp
  | utcOffset
  deriving DecidableEq, Repr

/-- A value that is not of its type. -/
structure VCardValueError where
  valueType : ValueType
  value : List Char
  deriving DecidableEq, Repr

/-!
# Cutting
-/

/-- The loop of `split_list`; separators are one byte long. -/
def splitLoop (value : List Char) (separator : Char) :
    Nat -> Nat -> Nat -> List (List Char) -> List (List Char)
  | 0, _, start, result => result ++ [value.drop start]
  | fuel + 1, offset, start, result =>
      match (value.drop offset).findIdx? (· = separator) with
      | none => result ++ [value.drop start]
      | some position =>
          let offset := offset + position + 1
          if offset < 2 then
            -- value starts with a separator
            splitLoop value separator fuel offset offset (result ++ [[]])
          else if value[offset - 2]? ≠ some '\\' then
            splitLoop value separator fuel offset offset
              (result ++ [(value.take (offset - 1)).drop start])
          else
            splitLoop value separator fuel offset start result

/-- Each pass gets behind one more separator. -/
def splitList (value : List Char) (separator : Char) : List (List Char) :=
  splitLoop value separator (value.length + 1) 0 0 []

/-!
# Texts
-/

structure Text where
  value : List Char
  deriving DecidableEq, Repr

def Text.unescape (value : List Char) : List Char :=
  replace ['\\', '\\'] ['\\']
    (replace ['\\', 'n'] ['\n']
      (replace ['\\', ','] [','] value))

def Text.new (value : List Char) : Text where
  value := unescape value

structure TextList where
  values : List Text
  deriving DecidableEq, Repr

def TextList.ofValue (value : List Char) : TextList where
  values := (splitList value ',').map Text.new

/-!
# Components
-/

structure Component where
  value : List Char
  deriving DecidableEq, Repr

def Component.unescape (value : List Char) : List Char :=
  replace ['\\', '\\'] ['\\']
    (replace ['\\', 'n'] ['\n']
      (replace ['\\', ';'] [';']
        (replace ['\\', ','] [','] value)))

/-- The characters that stand for themselves in a component. -/
def isComponentChar (c : Char) : Bool :=
  c = ' ' || c = '\t' || 0x7F < c.toNat || (0x21 ≤ c.toNat && c.toNat ≤ 0x2B) ||
    (0x2D ≤ c.toNat && c.toNat ≤ 0x3A) || (0x3C ≤ c.toNat && c.toNat ≤ 0x5B) ||
    (0x5D ≤ c.toNat && c.toNat ≤ 0x7E)

/--
The regular expression of components: its alternatives differ in their first
character, or in the second after a backslash.
-/
def isComponentValue : List Char -> Bool
  | [] => true
  | '\\' :: c :: rest =>
      (c = '\\' || c = ',' || c = ';' || c = 'n') && isComponentValue rest
  | c :: rest => isComponentChar c && isComponentValue rest

def Component.tryFrom (value : List Char) : Except VCardValueError Component :=
  if isComponentValue value then
    Except.ok ⟨Component.unescape value⟩
  else
    Except.error ⟨ValueType.component, value⟩

structure ListComponent where
  values : List Component
  deriving DecidableEq, Repr

def ListComponent.tryFrom (value : List Char) :
    Except VCardValueError ListComponent := do
  let values <- (splitList value ',').mapM Component.tryFrom
  pure ⟨values⟩

/-- A component that is no list counts as empty. -/
def ListComponent.ofValue (value : List Char) : ListComponent :=
  match ListComponent.tryFrom value with
  | Except.ok component => component
  | Except.error _ => ⟨[]⟩

/-!
# Names and addresses
-/

inductive PropertyKind where
  | n
  | adr
  deriving DecidableEq, Repr

inductive VCardError where
  | missingValue (kind : PropertyKind)
  | unexpected (message : String)
  deriving DecidableEq, Repr

/-- The closure `next` of names and addresses. -/
def nextComponent (message : String) (values : List (List Char)) :
    Except VCardError (ListComponent × List (List Char)) :=
  match values with
  | [] => Except.error (VCardError.unexpected message)
  | value :: values => Except.ok (ListComponent.ofValue value, values)

/-- The components of a name. -/
structure Name where
  last : ListComponent
  first : ListComponent
  additional : ListComponent
  prefixes : ListComponent
  suffixes : ListComponent
  deriving DecidableEq, Repr

def Name.tryFrom (value : Option (List Char)) : Except VCardError Name :=
  match value with
  | none => Except.error (VCardError.missingValue PropertyKind.n)
  | some value => do
      let next := nextComponent "Too little args in Name"
      let (last, values) <- next (splitList value ';')
      let (first, values) <- next values
      let (additional, values) <- next values
      let (prefixes, values) <- next values
      let (suffixes, _) <- next values
      pure ⟨last, first, additional, prefixes, suffixes⟩

/-- The components of an address. -/
structure Address where
  postOfficeBox : ListComponent
  extendedAddress : ListComponent
  street : ListComponent
  locality : ListComponent
  region : ListComponent
  postalCode : ListComponent
  country : ListComponent
  deriving DecidableEq, Repr

def Address.tryFrom (value : Option (List Char)) : Except VCardError Address :=
  match value with
  | none => Except.error (VCardError.missingValue PropertyKind.adr)
  | some value => do
      let next := nextComponent "Too little args in Adr"
      let (postOfficeBox, values) <- next (splitList value ';')
      let (extendedAddress, values) <- next values
      let (street, values) <- next values
      let (locality, values) <- next values
      let (region, values) <- next values
      let (postalCode, values) <- next values
      let (country, _) <- next values
      pure ⟨postOfficeBox, extendedAddress, street, locality, region,
        postalCode, country⟩

/-!
# Writing

What RFC 6350 prescribes for a value that is written.
-/

def escapeChar (c : Char) : List Char :=
  if c = '\\' then ['\\', '\\']
  else if c = ',' then ['\\', ',']
  else if c = ';' then ['\\', ';']
  else if c = '\n' then ['\\', 'n']
  else [c]

def escape (value : List Char) : List Char :=
  value.flatMap escapeChar

def writeList (values : List (List Char)) : List Char :=
  List.intercalate [','] (values.map escape)

def writeComponents (components : List (List (List Char))) : List Char :=
  List.intercalate [';'] (components.map writeList)

def ListComponent.written (component : ListComponent) : List (List Char) :=
  component.values.map Component.value

def Name.write (name : Name) : List Char :=
  writeComponents
    ([name.last, name.first, name.additional, name.prefixes,
      name.suffixes].map ListComponent.written)

def Address.write (address : Address) : List Char :=
  writeComponents
    ([address.postOfficeBox, address.extendedAddress, address.street,
      address.locality, address.region, address.postalCode,
      address.country].map ListComponent.written)

end Vcard
end MailClient
