/-
  File:      CodeAtlas/Template/BuiltIn.lean
  Subject:   The templates and style sheets that come with the program.

  * `builtInFolders`: their names and texts. The generations after `base` have a
    start page, a frame and a style sheet of their own, and take the other pages
    from `base`.
  * `builtInTree`: the tree in which they are installed. A path may go up in it and
    down again.
-/
import CodeAtlas.Log
import CodeAtlas.Text.Encoding
import CodeAtlas.Tree

namespace CodeAtlas

namespace Template

/-- The text of some lines, each with a line feed after it. -/
def textOfLines (lines : List String) : Text := lines.flatMap fun line => line.toList ++ ['\n']

/-! ## 1. Texts -/

/-- The frame of the pages of the base generation. -/
def baseLayout : Text :=
  textOfLines [
   "<!DOCTYPE html>",
   "<html lang=\"en\">",
   "<head>",
   "<meta charset=\"\x7b\x7b output_encoding \x7d\x7d\" />",
   "<title>\x7b% block title %\x7d\x7b\x7b window_title|e \x7d\x7d\x7b% endblock %\x7d</title>",
   "<link rel=\"stylesheet\" type=\"text/css\" href=\"\x7b\x7b root_ref \x7d\x7dstylesheet.css\" title=\"style\" />",
   "</head>",
   "<body>",
   "\x7b% block body %\x7d\x7b% endblock %\x7d",
   "\x7b% block footer %\x7d\x7b% endblock %\x7d",
   "</body>",
   "</html>"]

/-- The start page of the base generation. -/
def baseIndex : Text :=
  textOfLines [
   "\x7b% extends \"layout.j2\" %\x7d",
   "\x7b% block body %\x7d",
   "<div class=\"overview\">",
   "<h1>\x7b\x7b doc_title|e \x7d\x7d</h1>",
   "<ul class=\"navigation\">",
   "<li><a href=\"overview-summary.html\">Overview</a></li>",
   "<li><a href=\"allclasses-frame.html\">All Classes</a></li>",
   "</ul>",
   "</div>",
   "<h2>Packages</h2>",
   "<ul class=\"packages\">",
   "\x7b% for pkg in info.all_packages.values() %\x7d",
   "<li><a href=\"\x7b\x7b pkg.dir \x7d\x7d/\x7b\x7b index_page \x7d\x7d\">\x7b\x7b pkg.name|e \x7d\x7d</a></li>",
   "\x7b% endfor %\x7d",
   "</ul>",
   "\x7b% endblock %\x7d",
   "\x7b% block footer %\x7d",
   "<div id=\"footer\">\x7b\x7b bottom \x7d\x7d</div>",
   "\x7b% endblock %\x7d"]

/-- The list of all classes. -/
def allClasses : Text :=
  textOfLines [
   "\x7b% extends \"layout.j2\" %\x7d",
   "\x7b% block title %\x7dAll Classes\x7b% endblock %\x7d",
   "\x7b% block body %\x7d",
   "<h3>All Classes</h3>",
   "<ul>",
   "\x7b% for cls in info.all_classes.values() %\x7d",
   "<li><a href=\"\x7b\x7b cls.dir \x7d\x7d/\x7b\x7b cls.filename \x7d\x7d.html#\x7b\x7b cls.name \x7d\x7d\" target=\"classFrame\">\x7b\x7b cls.name|e \x7d\x7d</a></li>",
   "\x7b% endfor %\x7d",
   "</ul>",
   "\x7b% endblock %\x7d"]

/-- The list of all packages. -/
def overviewFrame : Text :=
  textOfLines [
   "\x7b% extends \"layout.j2\" %\x7d",
   "\x7b% block body %\x7d",
   "<h3><a href=\"allclasses-frame.html\" target=\"packageFrame\">All Classes</a></h3>",
   "<h3>Packages</h3>",
   "<ul>",
   "\x7b% for pkg in info.all_packages.values() %\x7d",
   "<li><a href=\"\x7b\x7b pkg.dir \x7d\x7d/package-frame.html\" target=\"packageFrame\">\x7b\x7b pkg.name|e \x7d\x7d</a></li>",
   "\x7b% endfor %\x7d",
   "</ul>",
   "\x7b% endblock %\x7d"]

/-- The table of all packages. -/
def overviewSummary : Text :=
  textOfLines [
   "\x7b% extends \"layout.j2\" %\x7d",
   "\x7b% block body %\x7d",
   "<div class=\"overview\">",
   "<ul>",
   "<li class=\"selected\">Overview</li>",
   "<li>Package</li>",
   "</ul>",
   "</div>",
   "<h1 class=\"title\">\x7b\x7b doc_title|e \x7d\x7d</h1>",
   "<table class=\"summary\">",
   "<thead>",
   "<tr><th>Packages</th></tr>",
   "</thead>",
   "<tbody>",
   "\x7b% for pkg in info.all_packages.values() %\x7d",
   "<tr><td><a href=\"\x7b\x7b pkg.dir \x7d\x7d/\x7b\x7b index_page \x7d\x7d\">\x7b\x7b pkg.name|e \x7d\x7d</a></td></tr>",
   "\x7b% endfor %\x7d",
   "</tbody>",
   "</table>",
   "\x7b% endblock %\x7d",
   "\x7b% block footer %\x7d",
   "<hr />",
   "<div id=\"footer\">\x7b\x7b bottom \x7d\x7d</div>",
   "\x7b% endblock %\x7d"]

/-- The list of the classes of a package. -/
def packageFrame : Text :=
  textOfLines [
   "\x7b% extends \"layout.j2\" %\x7d",
   "\x7b% block title %\x7d\x7b\x7b window_title|e \x7d\x7d - \x7b\x7b pkg_info.name|e \x7d\x7d\x7b% endblock %\x7d",
   "\x7b% block body %\x7d",
   "<h3><a href=\"\x7b\x7b index_page \x7d\x7d\" target=\"classFrame\">\x7b\x7b pkg_info.name|e \x7d\x7d</a></h3>",
   "<h3>Classes</h3>",
   "<ul>",
   "\x7b% for cls in pkg_info.classes.values() %\x7d",
   "<li><a href=\"\x7b\x7b cls.filename \x7d\x7d.html#\x7b\x7b cls.name \x7d\x7d\" target=\"classFrame\">\x7b\x7b cls.name|e \x7d\x7d</a></li>",
   "\x7b% endfor %\x7d",
   "</ul>",
   "\x7b% endblock %\x7d"]

/-- The table of the classes of a package. -/
def packageSummary : Text :=
  textOfLines [
   "\x7b% extends \"layout.j2\" %\x7d",
   "\x7b% block title %\x7d\x7b\x7b window_title|e \x7d\x7d - \x7b\x7b pkg_info.name|e \x7d\x7d\x7b% endblock %\x7d",
   "\x7b% block body %\x7d",
   "<div class=\"overview\">",
   "<ul>",
   "<li><a href=\"\x7b\x7b root_ref \x7d\x7doverview-summary.html\">Overview</a></li>",
   "<li class=\"selected\">Package</li>",
   "</ul>",
   "</div>",
   "<h2>Package \x7b\x7b pkg_info.name|e \x7d\x7d</h2>",
   "<table class=\"summary\">",
   "<thead>",
   "<tr><th>Class Summary</th></tr>",
   "</thead>",
   "<tbody>",
   "\x7b% for cls in pkg_info.classes.values() %\x7d",
   "<tr><td><a href=\"\x7b\x7b cls.filename \x7d\x7d.html#\x7b\x7b cls.name \x7d\x7d\" target=\"classFrame\">\x7b\x7b cls.name|e \x7d\x7d</a></td></tr>",
   "\x7b% endfor %\x7d",
   "</tbody>",
   "</table>",
   "\x7b% endblock %\x7d",
   "\x7b% block footer %\x7d",
   "<hr />",
   "<div id=\"footer\">\x7b\x7b bottom \x7d\x7d</div>",
   "\x7b% endblock %\x7d"]

/-- The frame of the pages of the other generations. -/
def looseLayout : Text :=
  textOfLines [
   "<!DOCTYPE HTML PUBLIC \"-//W3C//DTD HTML 4.01 Transitional//EN\" \"http://www.w3.org/TR/html4/loose.dtd\">",
   "<html lang=\"en\">",
   "<head>",
   "<meta http-equiv=\"Content-Type\" content=\"text/html; charset=\x7b\x7b output_encoding \x7d\x7d\" />",
   "<title>\x7b% block title %\x7d\x7b\x7b window_title|e \x7d\x7d\x7b% endblock %\x7d</title>",
   "<link rel=\"stylesheet\" type=\"text/css\" href=\"\x7b\x7b root_ref \x7d\x7dstylesheet.css\" title=\"style\" />",
   "</head>",
   "<body>",
   "\x7b% block body %\x7d\x7b% endblock %\x7d",
   "\x7b% block footer %\x7d\x7b% endblock %\x7d",
   "</body>",
   "</html>"]

/-- The start page of the other generations, which is a set of frames. -/
def framesetIndex : Text :=
  textOfLines [
   "<!DOCTYPE HTML PUBLIC \"-//W3C//DTD HTML 4.01 Frameset//EN\" \"http://www.w3.org/TR/html4/frameset.dtd\">",
   "<html lang=\"en\">",
   "<head>",
   "<meta http-equiv=\"Content-Type\" content=\"text/html; charset=\x7b\x7b output_encoding \x7d\x7d\" />",
   "<title>\x7b\x7b window_title|e \x7d\x7d</title>",
   "</head>",
   "<frameset cols=\"20%,80%\" title=\"Documentation frame\">",
   "<frameset rows=\"30%,70%\" title=\"Left frames\">",
   "<frame src=\"overview-frame.html\" name=\"packageListFrame\" title=\"All Packages\" />",
   "<frame src=\"allclasses-frame.html\" name=\"packageFrame\" title=\"All classes and interfaces\" />",
   "</frameset>",
   "<frame src=\"overview-summary.html\" name=\"classFrame\" title=\"Package, class and interface descriptions\" />",
   "<noframes>",
   "<h2>Frame Alert</h2>",
   "<p>This document is designed to be viewed using frames. Link to the <a href=\"overview-summary.html\">non-frame version</a>.</p>",
   "</noframes>",
   "</frameset>",
   "</html>"]

/-- The style sheet of the base generation. -/
def baseStyle : Text :=
  textOfLines [
   "/* srcxref default stylesheet */",
   "body \x7b",
   "    background-color: #fff;",
   "    font-family: Arial, Helvetica, sans-serif;",
   "\x7d",
   "",
   "a:link \x7b color: #00f; \x7d",
   "a:visited \x7b color: #00a; \x7d",
   "a:active, a:hover \x7b color: #f30 !important; \x7d",
   "",
   "ul \x7b list-style-type: none; padding-left: 0; \x7d",
   "",
   "div.overview \x7b background-color: #ddd; padding: 4px 4px 4px 0; \x7d",
   "div.overview li \x7b display: inline; padding: 4px; \x7d",
   "div.overview li.selected \x7b background-color: #888; color: #fff; font-weight: bold; \x7d",
   "",
   "table.summary \x7b border-collapse: collapse; width: 100%; \x7d",
   "table.summary th, table.summary td \x7b border: 1px solid #000; padding: 2px 4px; text-align: left; \x7d",
   "table.summary th \x7b background-color: #036; color: #fff; \x7d",
   "",
   "pre \x7b font-family: monospace; \x7d",
   "",
   ".jxr_comment \x7b color: #390; \x7d",
   ".jxr_javadoccomment \x7b color: #a00; \x7d",
   ".jxr_string \x7b color: #009; \x7d",
   ".jxr_keyword \x7b color: #000; \x7d",
   ".jxr_declaration \x7b font-weight: bold; \x7d",
   "a.jxr_linenumber \x7b color: #888; text-decoration: none; \x7d",
   "",
   "#footer \x7b font-size: small; \x7d"]

/-- The style sheet of generation `jdk4`. -/
def jdk4Style : Text :=
  textOfLines [
   "/* srcxref stylesheet, javadoc 1.4 look */",
   "body \x7b background-color: #fff; \x7d",
   "",
   ".TableHeadingColor \x7b background: #ccf; \x7d",
   ".TableSubHeadingColor \x7b background: #eef; \x7d",
   ".TableRowColor \x7b background: #fff; \x7d",
   "",
   ".FrameTitleFont \x7b font-size: normal; font-family: normal; \x7d",
   ".FrameHeadingFont \x7b font-size: normal; font-family: normal; \x7d",
   ".FrameItemFont \x7b font-size: normal; font-family: normal; \x7d",
   "",
   "table.summary \x7b border-collapse: collapse; width: 100%; \x7d",
   "table.summary th \x7b background: #ccf; text-align: left; \x7d",
   "table.summary td, table.summary th \x7b border: 1px solid #000; padding: 2px; \x7d",
   "",
   "div.overview \x7b background-color: #eef; \x7d",
   "div.overview li \x7b display: inline; padding: 2px; \x7d",
   "div.overview li.selected \x7b background-color: #00008b; color: #fff; font-weight: bold; \x7d",
   "",
   "ul \x7b list-style-type: none; padding-left: 0; \x7d",
   "",
   ".jxr_comment \x7b color: #390; \x7d",
   ".jxr_javadoccomment \x7b color: #a00; \x7d",
   ".jxr_string \x7b color: #009; \x7d",
   ".jxr_keyword \x7b color: #000; \x7d",
   ".jxr_declaration \x7b font-weight: bold; \x7d",
   "a.jxr_linenumber \x7b color: #888; text-decoration: none; \x7d"]

/-- The style sheet of generation `jdk7`. -/
def jdk7Style : Text :=
  textOfLines [
   "/* srcxref stylesheet, javadoc 7 look */",
   "body \x7b",
   "    background-color: #fff;",
   "    font-family: Arial, Helvetica, sans-serif;",
   "    color: #000;",
   "    font-size: 76%;",
   "\x7d",
   "",
   "a:link, a:visited \x7b text-decoration: none; color: #4c6b87; \x7d",
   "a:hover, a:focus \x7b text-decoration: none; color: #bb7a2a; \x7d",
   "",
   "h1 \x7b font-size: 1.8em; \x7d",
   "h2 \x7b font-size: 1.5em; \x7d",
   "h3 \x7b font-size: 1.4em; \x7d",
   "",
   "ul \x7b list-style-type: none; padding-left: 0; \x7d",
   "",
   "div.overview \x7b background-color: #4c6b87; color: #fff; padding: 0.6em; \x7d",
   "div.overview a \x7b color: #fff; \x7d",
   "div.overview li \x7b display: inline; padding: 5px 6px; \x7d",
   "div.overview li.selected \x7b background-color: #f8981d; color: #253441; \x7d",
   "",
   "table.summary \x7b border-collapse: collapse; width: 100%; \x7d",
   "table.summary th \x7b background-color: #dee3e9; text-align: left; padding: 3px 3px 3px 7px; \x7d",
   "table.summary td \x7b padding: 3px 3px 3px 7px; border-bottom: 1px solid #eee; \x7d",
   "",
   ".jxr_comment \x7b color: #390; \x7d",
   ".jxr_javadoccomment \x7b color: #a00; \x7d",
   ".jxr_string \x7b color: #009; \x7d",
   ".jxr_keyword \x7b color: #000; font-weight: bold; \x7d",
   ".jxr_declaration \x7b font-weight: bold; \x7d",
   "a.jxr_linenumber \x7b color: #888; \x7d",
   "",
   "#footer \x7b color: #666; font-size: 0.9em; \x7d"]

/-- The style sheet of generation `jdk8`. -/
def jdk8Style : Text :=
  textOfLines [
   "/* srcxref stylesheet, javadoc 8 look */",
   "body \x7b",
   "    background-color: #fff;",
   "    color: #353833;",
   "    font-family: 'DejaVu Sans', Arial, Helvetica, sans-serif;",
   "    font-size: 14px;",
   "    margin: 0;",
   "\x7d",
   "",
   "a:link, a:visited \x7b text-decoration: none; color: #4a6782; \x7d",
   "a:hover, a:focus \x7b color: #bb7a2a; \x7d",
   "",
   "h1 \x7b font-size: 20px; \x7d",
   "h2 \x7b font-size: 18px; \x7d",
   "h3 \x7b font-size: 16px; font-style: italic; \x7d",
   "",
   "ul \x7b list-style-type: none; padding-left: 0; \x7d",
   "",
   "pre \x7b font-family: 'DejaVu Sans Mono', monospace; font-size: 14px; \x7d",
   "",
   "div.overview \x7b background-color: #4d7a97; color: #fff; float: left; width: 100%; padding: 0.8em 0; \x7d",
   "div.overview a \x7b color: #fff; \x7d",
   "div.overview li \x7b display: inline; padding: 5px 6px; text-transform: uppercase; \x7d",
   "div.overview li.selected \x7b background-color: #f8981d; color: #253441; \x7d",
   "",
   "h1.title \x7b clear: both; margin: 10px 0; \x7d",
   "",
   "table.summary \x7b border-collapse: collapse; width: 100%; border-left: 1px solid #eee; border-right: 1px solid #eee; border-bottom: 1px solid #eee; \x7d",
   "table.summary th \x7b background-color: #dee3e9; text-align: left; padding: 8px 3px 3px 7px; \x7d",
   "table.summary td \x7b padding: 8px 3px 3px 10px; \x7d",
   "table.summary tr:nth-child(even) \x7b background-color: #eeeeef; \x7d",
   "",
   ".jxr_comment \x7b color: #390; \x7d",
   ".jxr_javadoccomment \x7b color: #a00; \x7d",
   ".jxr_string \x7b color: #009; \x7d",
   ".jxr_keyword \x7b color: #000; font-weight: bold; \x7d",
   ".jxr_declaration \x7b font-weight: bold; \x7d",
   "a.jxr_linenumber \x7b color: #888; \x7d",
   "",
   "#footer \x7b color: #666; font-size: 12px; padding: 0 10px; \x7d"]

/-! ## 2. The tree -/

/-- Where the folder of the built-in files is installed. -/
def builtInLocation : Location := [loggerRoot, "indexing", "templates"]

/-- The files of a generation other than `base`, by name. -/
def generationFiles (style : Text) : List (Text × Text) :=
  [("layout.j2", looseLayout), ("index.j2", framesetIndex), ("stylesheet.css", style)]

/-- The files of the generation `base`, by name. -/
def baseFiles : List (Text × Text) :=
  [("layout.j2", baseLayout), ("index.j2", baseIndex), ("allclasses-frame.j2", allClasses),
   ("overview-frame.j2", overviewFrame), ("overview-summary.j2", overviewSummary),
   ("package-frame.j2", packageFrame), ("package-summary.j2", packageSummary),
   ("stylesheet.css", baseStyle)]

/-- The files of all generations. -/
def builtInFolders : List (Text × List (Text × Text)) :=
  [("base", baseFiles), ("jdk4", generationFiles jdk4Style), ("jdk7", generationFiles jdk7Style),
   ("jdk8", generationFiles jdk8Style)]

/-- The tree of the built-in files: the folders down to theirs, and a folder for each
generation. -/
def builtInTree : Tree :=
  let above := (List.range builtInLocation.length).map fun n =>
    (builtInLocation.take (n + 1), Entry.folder)
  let below := builtInFolders.flatMap fun (folder, files) =>
    let location := builtInLocation ++ [folder]
    (location, Entry.folder) :: files.map fun (name, text) =>
      (location ++ [name], Entry.file (Encoding.utf8.encode text))
  ⟨above ++ below⟩

end Template

/-- The tree that a path leads into, this one or that of the built-in files, and the way there. -/
def Tree.withBuiltIn (tree : Tree) (path : Path) : Tree × Path :=
  match path.anchor with
  | .builtIn => (Template.builtInTree, ⟨.root, Template.builtInLocation ++ path.segments⟩)
  | _ => (tree, path)

end CodeAtlas
