/-!
# Coloured text

What the program prints is a list of spans, some of them in a colour. On a terminal that is not
asked to stay plain, a coloured span stands between the sequence of its colour and the reset
sequence; anywhere else only its text is printed.
-/

namespace SuiteLint

/-- Colours and styles of a terminal. -/
inductive Color where
  | reset
  | bold
  | dim
  | red
  | green
  | yellow
  | blue
  | cyan
deriving DecidableEq

namespace Color

def all : List Color :=
  [.reset, .bold, .dim, .red, .green, .yellow, .blue, .cyan]

def name : Color → String
  | .reset => "reset"
  | .bold => "bold"
  | .dim => "dim"
  | .red => "red"
  | .green => "green"
  | .yellow => "yellow"
  | .blue => "blue"
  | .cyan => "cyan"

/-- The sequence that switches a colour on. -/
def sequence : Color → String
  | .reset => "\x1b[0m"
  | .bold => "\x1b[1m"
  | .dim => "\x1b[2m"
  | .red => "\x1b[31m"
  | .green => "\x1b[32m"
  | .yellow => "\x1b[33m"
  | .blue => "\x1b[34m"
  | .cyan => "\x1b[36m"

def ofName? (name : String) : Option Color :=
  all.find? (·.name = name)

end Color

/-- Where text is printed: whether it is a terminal, and whether colours are switched off. -/
structure Console where
  tty : Bool
  noColor : Bool
deriving DecidableEq

namespace Console

def colored (c : Console) : Bool :=
  c.tty && !c.noColor

/-- A text in a colour. Without a known colour it is still followed by the reset sequence. -/
def paint (c : Console) (color : Option Color) (text : String) : String :=
  if c.colored then ((color.map Color.sequence).getD "") ++ text ++ Color.reset.sequence else text

end Console

/-- A piece of what is printed. -/
inductive Span where
  | plain (text : String)
  | painted (color : Color) (text : String)
deriving DecidableEq

/-- The text of a span, without its colour. -/
def Span.text : Span → String
  | .plain text => text
  | .painted _ text => text

def Console.renderSpan (c : Console) : Span → String
  | .plain text => text
  | .painted color text => c.paint (some color) text

def Console.render (c : Console) (spans : List Span) : String :=
  String.join (spans.map c.renderSpan)

end SuiteLint
