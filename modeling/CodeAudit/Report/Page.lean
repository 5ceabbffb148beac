import CodeAudit.Text.Basic

/-!
# The page of the HTML report

The parts of the page that do not depend on the findings: styles, headings, and the script that draws
the charts.
-/

namespace CodeAudit.HtmlReport.Page

def start : String := Text.join "\n" [
  "<!DOCTYPE html>",
  "<html lang=\"en\">",
  "<head>",
  "<meta charset=\"UTF-8\">",
  "<meta name=\"viewport\" content=\"width=device-width, initial-scale=1.0\">",
  "<title>VulnPredict Scan Report</title>",
  "<style>",
  "  :root \x7b",
  "    --bg: #f8fafc; --card-bg: #ffffff; --text: #1e293b;",
  "    --border: #e2e8f0; --muted: #64748b;",
  "  \x7d",
  "  * \x7b margin: 0; padding: 0; box-sizing: border-box; \x7d",
  "  body \x7b font-family: -apple-system, BlinkMacSystemFont, 'Segoe UI', Roboto, sans-serif;",
  "         background: var(--bg); color: var(--text); line-height: 1.6; padding: 2rem; \x7d",
  "  .container \x7b max-width: 1200px; margin: 0 auto; \x7d",
  "  h1 \x7b font-size: 1.75rem; margin-bottom: 0.25rem; \x7d",
  "  .subtitle \x7b color: var(--muted); margin-bottom: 2rem; \x7d",
  "  .cards \x7b display: grid; grid-template-columns: repeat(auto-fit, minmax(200px, 1fr)); gap: 1rem; margin-bottom: 2rem; \x7d",
  "  .card \x7b background: var(--card-bg); border: 1px solid var(--border); border-radius: 8px;",
  "           padding: 1.25rem; text-align: center; \x7d",
  "  .card .number \x7b font-size: 2rem; font-weight: 700; \x7d",
  "  .card .label \x7b color: var(--muted); font-size: 0.875rem; text-transform: uppercase; letter-spacing: 0.05em; \x7d",
  "  .charts \x7b display: grid; grid-template-columns: repeat(auto-fit, minmax(340px, 1fr)); gap: 1.5rem; margin-bottom: 2rem; \x7d",
  "  .chart-card \x7b background: var(--card-bg); border: 1px solid var(--border); border-radius: 8px; padding: 1.25rem; \x7d",
  "  .chart-card h3 \x7b margin-bottom: 1rem; font-size: 1rem; \x7d",
  "  canvas \x7b max-width: 100%; \x7d",
  "  table \x7b width: 100%; border-collapse: collapse; background: var(--card-bg);",
  "           border: 1px solid var(--border); border-radius: 8px; overflow: hidden; \x7d",
  "  th \x7b background: #f1f5f9; text-align: left; padding: 0.75rem 1rem; font-size: 0.8rem;",
  "       text-transform: uppercase; letter-spacing: 0.05em; color: var(--muted); border-bottom: 2px solid var(--border); \x7d",
  "  td \x7b padding: 0.75rem 1rem; border-bottom: 1px solid var(--border); font-size: 0.875rem; vertical-align: top; \x7d",
  "  tr:hover \x7b background: #f8fafc; \x7d",
  "  .severity-badge \x7b display: inline-block; padding: 0.15rem 0.5rem; border-radius: 4px;",
  "                     color: #fff; font-size: 0.75rem; font-weight: 600; letter-spacing: 0.03em; \x7d",
  "  .filepath \x7b font-family: 'SF Mono', Consolas, monospace; font-size: 0.8rem; word-break: break-all; \x7d",
  "  .section-title \x7b font-size: 1.25rem; margin: 2rem 0 1rem; \x7d",
  "  .footer \x7b text-align: center; color: var(--muted); font-size: 0.8rem; margin-top: 3rem; padding-top: 1rem; border-top: 1px solid var(--border); \x7d",
  "  .filter-bar \x7b margin-bottom: 1rem; \x7d",
  "  .filter-bar input \x7b padding: 0.5rem 1rem; border: 1px solid var(--border); border-radius: 6px;",
  "                       font-size: 0.875rem; width: 300px; \x7d",
  "  @media print \x7b",
  "    body \x7b padding: 0.5rem; \x7d",
  "    .filter-bar \x7b display: none; \x7d",
  "  \x7d",
  "</style>",
  "</head>",
  "<body>",
  "<div class=\"container\">",
  "  <h1>VulnPredict Scan Report</h1>",
  "  <p class=\"subtitle\">Scanned <strong>"]

def charts : String := Text.join "\n" [
  "  </div>",
  "",
  "  <div class=\"charts\">",
  "    <div class=\"chart-card\">",
  "      <h3>Severity Distribution</h3>",
  "      <canvas id=\"sevChart\" height=\"200\"></canvas>",
  "    </div>",
  "    <div class=\"chart-card\">",
  "      <h3>Top Files by Findings</h3>",
  "      <canvas id=\"fileChart\" height=\"200\"></canvas>",
  "    </div>",
  "    <div class=\"chart-card\">",
  "      <h3>Finding Types</h3>",
  "      <canvas id=\"typeChart\" height=\"200\"></canvas>",
  "    </div>",
  "  </div>",
  "",
  "  <h2 class=\"section-title\">Detailed Findings</h2>",
  "  <div class=\"filter-bar\">",
  "    <input type=\"text\" id=\"filterInput\" placeholder=\"Filter findings...\" onkeyup=\"filterTable()\">",
  "  </div>",
  "  <table id=\"findingsTable\">",
  "    <thead>",
  "      <tr>",
  "        <th>#</th><th>Severity</th><th>File</th><th>Line</th><th>Function</th>",
  "        <th>Type</th><th>Detail</th><th>Remediation</th><th>Score</th>",
  "      </tr>",
  "    </thead>",
  "    <tbody>",
  "      "]

def footer : String := Text.join "\n" [
  "",
  "    </tbody>",
  "  </table>",
  "",
  "  <div class=\"footer\">",
  "    Generated by <strong>VulnPredict</strong> &mdash; Predictive Vulnerability Intelligence Tool<br>",
  "    Scan duration: "]

def script : String := Text.join "\n" [
  " files",
  "  </div>",
  "</div>",
  "",
  "<script>",
  "// Minimal inline chart library (no external deps)",
  "(function() \x7b",
  "  function drawDoughnut(canvasId, labels, values, colors) \x7b",
  "    var canvas = document.getElementById(canvasId);",
  "    if (!canvas || !canvas.getContext) return;",
  "    var ctx = canvas.getContext('2d');",
  "    var w = canvas.width = canvas.parentElement.clientWidth - 40;",
  "    var h = canvas.height = 220;",
  "    var cx = w * 0.35, cy = h / 2, r = Math.min(cx, cy) - 10, ri = r * 0.55;",
  "    var total = values.reduce(function(a, b) \x7b return a + b; \x7d, 0);",
  "    if (total === 0) return;",
  "    var start = -Math.PI / 2;",
  "    for (var i = 0; i < values.length; i++) \x7b",
  "      var angle = (values[i] / total) * 2 * Math.PI;",
  "      ctx.beginPath();",
  "      ctx.moveTo(cx, cy);",
  "      ctx.arc(cx, cy, r, start, start + angle);",
  "      ctx.closePath();",
  "      ctx.fillStyle = colors[i] || '#ccc';",
  "      ctx.fill();",
  "      start += angle;",
  "    \x7d",
  "    ctx.beginPath();",
  "    ctx.arc(cx, cy, ri, 0, 2 * Math.PI);",
  "    ctx.fillStyle = '#fff';",
  "    ctx.fill();",
  "    // Legend",
  "    var lx = w * 0.72, ly = 20;",
  "    ctx.font = '12px -apple-system, sans-serif';",
  "    for (var i = 0; i < labels.length; i++) \x7b",
  "      ctx.fillStyle = colors[i] || '#ccc';",
  "      ctx.fillRect(lx, ly + i * 22, 12, 12);",
  "      ctx.fillStyle = '#1e293b';",
  "      ctx.fillText(labels[i] + ' (' + values[i] + ')', lx + 18, ly + i * 22 + 11);",
  "    \x7d",
  "  \x7d",
  "",
  "  function drawBar(canvasId, labels, values, color) \x7b",
  "    var canvas = document.getElementById(canvasId);",
  "    if (!canvas || !canvas.getContext) return;",
  "    var ctx = canvas.getContext('2d');",
  "    var w = canvas.width = canvas.parentElement.clientWidth - 40;",
  "    var h = canvas.height = 220;",
  "    var max = Math.max.apply(null, values) || 1;",
  "    var barW = Math.min(40, (w - 60) / labels.length - 8);",
  "    var baseY = h - 30;",
  "    var chartH = baseY - 20;",
  "    ctx.font = '11px -apple-system, sans-serif';",
  "    ctx.textAlign = 'center';",
  "    for (var i = 0; i < values.length; i++) \x7b",
  "      var barH = (values[i] / max) * chartH;",
  "      var x = 40 + i * (barW + 8);",
  "      ctx.fillStyle = color || '#3b82f6';",
  "      ctx.fillRect(x, baseY - barH, barW, barH);",
  "      ctx.fillStyle = '#1e293b';",
  "      ctx.fillText(values[i], x + barW / 2, baseY - barH - 5);",
  "      ctx.save();",
  "      ctx.translate(x + barW / 2, baseY + 5);",
  "      ctx.rotate(-0.5);",
  "      ctx.fillStyle = '#64748b';",
  "      ctx.fillText(labels[i].substring(0, 12), 0, 10);",
  "      ctx.restore();",
  "    \x7d",
  "  \x7d",
  "",
  "  drawDoughnut('sevChart', "]

def finish : String := Text.join "\n" [
  ", '#8b5cf6');",
  "\x7d)();",
  "",
  "function filterTable() \x7b",
  "  var input = document.getElementById('filterInput').value.toLowerCase();",
  "  var rows = document.querySelectorAll('#findingsTable tbody tr');",
  "  rows.forEach(function(row) \x7b",
  "    row.style.display = row.textContent.toLowerCase().indexOf(input) > -1 ? '' : 'none';",
  "  \x7d);",
  "\x7d",
  "</script>",
  "</body>",
  "</html>"]

end CodeAudit.HtmlReport.Page
