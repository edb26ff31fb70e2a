import TraceSearch.Text.Utf8

/-!
# Files

What a program needs of the files around it: reading bytes by path, and the reasons why that fails.

Source: `load_traces_from_file`; the standard library's reading of a file to a string, and the texts
of its errors.
-/

namespace TraceSearch.Host

/-- Why a file is not read or written. -/
inductive FileError where
  | notFound
  | notPermitted
  | notAFolder
  | isAFolder
  | nameTooLong
  | badName
  | notText
  | other (description : String)
deriving DecidableEq

def FileError.message : FileError → String
  | notFound => "No such file or directory (os error 2)"
  | notPermitted => "Permission denied (os error 13)"
  | notAFolder => "Not a directory (os error 20)"
  | isAFolder => "Is a directory (os error 21)"
  | nameTooLong => "File name too long (os error 36)"
  | badName => "file name contained an unexpected NUL byte"
  | notText => "stream did not contain valid UTF-8"
  | other description => description

def FileError.ofNumber? (number : Nat) : Option FileError :=
  [(2, notFound), (13, notPermitted), (20, notAFolder), (21, isAFolder), (36, nameTooLong)].lookup
    number

def textOf (content : Except FileError ByteArray) : Except FileError String :=
  match content with
  | .error e => .error e
  | .ok bytes =>
    match Text.ofUtf8? bytes with
    | some text => .ok text
    | none => .error .notText

end TraceSearch.Host
