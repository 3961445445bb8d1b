import Stencil.Schema.Entry
import Stencil.Text.Search

/-!
# The vocabulary of HTML

The elements of the standard with the attributes of their own, and the attributes that are allowed
on every element.
-/

namespace Stencil.Schema.Html

/-- Elements with content, in the order of the standard's chapters. -/
def containers : List (String × List String) := [
  ("html", []), ("head", []), ("title", []), ("body", []), ("style", ["media", "blocking"]),
  ("article", []), ("section", []), ("nav", []), ("aside", []), ("hgroup", []), ("header", []),
  ("footer", []), ("address", []), ("h1", []), ("h2", []), ("h3", []), ("h4", []), ("h5", []),
  ("h6", []), ("p", []), ("pre", []), ("ul", []), ("menu", []), ("dl", []), ("dt", []),
  ("dd", []), ("figure", []), ("figcaption", []), ("main", []), ("search", []), ("div", []),
  ("blockquote", ["cite"]), ("ol", ["reversed", "start", "type"]), ("li", ["value"]),
  ("a", ["href", "target", "download", "ping", "rel", "hreflang", "type", "referrerpolicy"]),
  ("em", []), ("strong", []), ("small", []), ("s", []), ("cite", []), ("dfn", []), ("abbr", []),
  ("ruby", []), ("rt", []), ("rp", []), ("code", []), ("var", []), ("samp", []), ("kbd", []),
  ("sup", []), ("sub", []), ("i", []), ("b", []), ("u", []), ("mark", []), ("bdi", []),
  ("bdo", []), ("span", []), ("picture", []), ("q", ["cite"]), ("data", ["value"]),
  ("time", ["datetime"]), ("ins", ["cite", "datetime"]), ("del", ["cite", "datetime"]),
  ("iframe", [
    "src", "srcdoc", "name", "sandbox", "allow", "allowfullscreen", "width", "height",
    "referrerpolicy", "loading"]),
  ("object", ["data", "type", "name", "form", "width", "height"]),
  ("video", [
    "src", "crossorigin", "poster", "preload", "autoplay", "playsinline", "loop", "muted",
    "controls", "width", "height"]),
  ("audio", ["src", "crossorigin", "preload", "autoplay", "loop", "muted", "controls"]),
  ("map", ["name"]), ("table", []), ("caption", []), ("tbody", []), ("thead", []), ("tfoot", []),
  ("tr", []), ("colgroup", ["span"]), ("td", ["colspan", "rowspan", "headers"]),
  ("th", ["colspan", "rowspan", "headers", "scope", "abbr"]),
  ("form", [
    "accept-charset", "action", "autocomplete", "enctype", "method", "name", "novalidate",
    "target", "rel"]),
  ("label", ["for"]),
  ("button", [
    "disabled", "form", "formaction", "formenctype", "formmethod", "formnovalidate",
    "formtarget", "name", "popovertarget", "popovertargetaction", "type", "value"]),
  ("select", ["autocomplete", "disabled", "form", "multiple", "name", "required", "size"]),
  ("datalist", []), ("optgroup", ["disabled", "label"]),
  ("option", ["disabled", "label", "selected", "value"]),
  ("textarea", [
    "autocomplete", "cols", "dirname", "disabled", "form", "maxlength", "minlength", "name",
    "placeholder", "readonly", "required", "rows", "wrap"]),
  ("output", ["for", "form", "name"]), ("progress", ["value", "max"]),
  ("meter", ["value", "min", "max", "low", "high", "optimum"]),
  ("fieldset", ["disabled", "form", "name"]), ("legend", []), ("summary", []), ("noscript", []),
  ("details", ["name", "open"]), ("dialog", ["open"]),
  ("script", [
    "src", "type", "nomodule", "async", "defer", "crossorigin", "integrity", "referrerpolicy",
    "blocking", "fetchpriority"]),
  ("template", ["shadowrootmode", "shadowrootdelegatesfocus"]), ("slot", ["name"]),
  ("canvas", ["width", "height"])]

/-- Void elements. -/
def voids : List (String × List String) := [
  ("area", [
    "alt", "coords", "shape", "href", "target", "download", "ping", "rel", "referrerpolicy"]),
  ("base", ["href", "target"]), ("br", []), ("col", ["span"]),
  ("embed", ["src", "type", "width", "height"]), ("hr", []),
  ("img", [
    "alt", "src", "srcset", "sizes", "crossorigin", "usemap", "ismap", "width", "height",
    "referrerpolicy", "decoding", "loading", "fetchpriority"]),
  ("input", [
    "accept", "alt", "autocomplete", "capture", "checked", "dirname", "disabled", "form",
    "formaction", "formenctype", "formmethod", "formnovalidate", "formtarget", "height", "list",
    "max", "maxlength", "min", "minlength", "multiple", "name", "pattern", "placeholder",
    "popovertarget", "popovertargetaction", "readonly", "required", "size", "src", "step",
    "type", "value", "width"]),
  ("link", [
    "href", "crossorigin", "rel", "media", "integrity", "hreflang", "type", "referrerpolicy",
    "sizes", "imagesrcset", "imagesizes", "as", "blocking", "color", "disabled", "fetchpriority"]),
  ("meta", ["name", "http-equiv", "content", "charset", "media"]),
  ("source", ["type", "media", "src", "srcset", "sizes", "width", "height"]),
  ("track", ["kind", "src", "srclang", "label", "default"]), ("wbr", [])]

/-- The entries of all elements. -/
def entries : List Entry :=
  (containers.map fun (name, attributes) => Entry.make name { attributes }) ++
    voids.map fun (name, attributes) => Entry.make name { isVoid := true, attributes }

/-- Attributes that every element has. -/
def globalAttributes : List String := [
  "accesskey", "autocapitalize", "autofocus", "class", "contenteditable", "dir", "draggable",
  "enterkeyhint", "hidden", "id", "inert", "inputmode", "is", "itemid", "itemprop", "itemref",
  "itemscope", "itemtype", "lang", "nonce", "popover", "slot", "spellcheck", "style", "tabindex",
  "title", "translate", "role"]

/-- Attributes that handle events, which every element has. -/
def eventHandlers : List String := [
  "onabort", "onautocomplete", "onautocompleteerror", "onblur", "oncancel", "oncanplay",
  "oncanplaythrough", "onchange", "onclick", "onclose", "oncontextmenu", "oncuechange",
  "ondblclick", "ondrag", "ondragend", "ondragenter", "ondragleave", "ondragover", "ondragstart",
  "ondrop", "ondurationchange", "onemptied", "onended", "onerror", "onfocus", "oninput",
  "oninvalid", "onkeydown", "onkeypress", "onkeyup", "onload", "onloadeddata", "onloadedmetadata",
  "onloadstart", "onmousedown", "onmouseenter", "onmouseleave", "onmousemove", "onmouseout",
  "onmouseover", "onmouseup", "onmousewheel", "onpause", "onplay", "onplaying", "onprogress",
  "onratechange", "onreset", "onresize", "onscroll", "onseeked", "onseeking", "onselect",
  "onshow", "onsort", "onstalled", "onsubmit", "onsuspend", "ontimeupdate", "ontoggle",
  "onvolumechange", "onwaiting"]

/-- An attribute whose name goes on after one of these beginnings is free for any use. -/
def openBeginnings : List String := ["data-", "aria-"]

/-- Whether an attribute is allowed on every element. -/
def isCommonAttribute (name : String) : Bool :=
  globalAttributes.contains name || eventHandlers.contains name ||
    openBeginnings.any fun start => Text.startsWith start name && name.length > start.length

end Stencil.Schema.Html
