import LiveTemplate.Text.Basic

namespace LiveTemplate.Markup

def textForm (c : Char) : Text :=
  if c = '&' then "&amp;".toList
  else if c = '<' then "&lt;".toList
  else if c = '>' then "&gt;".toList
  else if c = '\u00a0' then "&nbsp;".toList
  else [c]

def escapedText (t : Text) : Text :=
  t.flatMap textForm

def valueForm (c : Char) : Text :=
  if c = '&' then "&amp;".toList
  else if c = '"' then "&quot;".toList
  else if c = '\u00a0' then "&nbsp;".toList
  else [c]

def escapedValue (t : Text) : Text :=
  t.flatMap valueForm

end LiveTemplate.Markup
