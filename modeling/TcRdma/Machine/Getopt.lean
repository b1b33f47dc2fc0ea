import TcRdma.Machine.Numeral

namespace tc_rdma.machine

/-- `option`, the description of a long option. -/
structure LongOption where
  name : CString
  has_arg : Bool
  val : Char
  deriving DecidableEq, Repr

/-- What one call of `getopt_long` returns, with the `optarg` it leaves. An
option without an argument leaves none, which is written as empty here. -/
structure Answer where
  ch : Char
  optarg : CString
  deriving DecidableEq, Repr

/-- Whether the short option takes an argument, if there is such an option. -/
def short_option : CString → Char → Option Bool
  | [], _ => none
  | x :: ':' :: rest, c => if x = c then some true else short_option rest c
  | x :: rest, c => if x = c then some false else short_option rest c

/-- The long option of this name, or the only one whose name begins with it. -/
def long_option (long_options : List LongOption) (name : CString) : Option LongOption :=
  match long_options.find? fun option => option.name = name with
  | some option => some option
  | none =>
    match long_options.filter fun option => name.isPrefixOf option.name with
    | [option] => some option
    | _ => none

/-- The answers to an element of short options, and the option among them that
takes the next element as its argument. -/
def short_options (optstring : CString) : CString → List Answer × Option Char
  | [] => ([], none)
  | c :: rest =>
    match short_option optstring c with
    | none =>
      let found := short_options optstring rest
      (⟨'?', []⟩ :: found.1, found.2)
    | some false =>
      let found := short_options optstring rest
      (⟨c, []⟩ :: found.1, found.2)
    | some true => if rest = [] then ([], some c) else ([⟨c, rest⟩], none)

/-- The answer to an element with a long option, or the option that takes the
next element as its argument. -/
def long_element (long_options : List LongOption) (element : CString) : List Answer × Option Char :=
  match long_option long_options (element.takeWhile (· != '=')) with
  | none => ([⟨'?', []⟩], none)
  | some option =>
    match option.has_arg, element.dropWhile (· != '=') with
    | true, _ :: value => ([⟨option.val, value⟩], none)
    | true, [] => ([], some option.val)
    | false, [] => ([⟨option.val, []⟩], none)
    | false, _ :: _ => ([⟨'?', []⟩], none)

/-- What the calls of `getopt_long` return before the one that returns -1. What
is not an option is passed over, and a bare `--` ends the options. -/
def getopt_long (optstring : CString) (long_options : List LongOption) : Option Char → List CString → List Answer
  | some c, value :: args => ⟨c, value⟩ :: getopt_long optstring long_options none args
  | some _, [] => [⟨'?', []⟩]
  | none, [] => []
  | none, element :: args =>
    match element with
    | ['-', '-'] => []
    | '-' :: '-' :: name =>
      let found := long_element long_options name
      found.1 ++ getopt_long optstring long_options found.2 args
    | '-' :: c :: rest =>
      let found := short_options optstring (c :: rest)
      found.1 ++ getopt_long optstring long_options found.2 args
    | _ => getopt_long optstring long_options none args

example : getopt_long "i:Z".toList [⟨"port".toList, true, 'i'⟩] none
    ["x".toList, "-Zi".toList, "2".toList, "--po=3".toList, "-i4".toList, "--".toList, "-Z".toList] =
      [⟨'Z', []⟩, ⟨'i', ['2']⟩, ⟨'i', ['3']⟩, ⟨'i', ['4']⟩] := by decide

end tc_rdma.machine
